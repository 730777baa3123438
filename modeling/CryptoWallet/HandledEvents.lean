import CryptoWallet.DeadLetters

/-!
# Events which are handled in the end

A consumer acknowledges a message when its dispatch returned, or when it gave the
message up.  If the last permitted dispatch of an event does not raise, and the event is
not handed out again after that before it was recorded, it is never given up unrecorded:
once the message is acknowledged, the service has recorded the event.
-/

namespace CryptoWallet

open Program

variable {δ : Type}

namespace Pipeline

section

variable (service : Service δ) (maxDelivery : Nat) (watched : EventId → Prop)

/-- The last permitted dispatch of a watched event, and every one after it, finds the
event recorded or does not raise; a delivery beyond the last one finds it recorded. -/
def Timely (turn : Fate BusError × Turn) (command : PipelineCommand) (w : Pipeline δ) : Prop :=
  match command with
  | .dispatch delivered =>
    watched delivered.envelope.eventId → maxDelivery ≤ delivered.deliveryCount →
      service.recorded w.db delivered.envelope.eventId = true ∨
        Commits service turn delivered w
  | .xaddDeadLetter item =>
    watched item.delivered.envelope.eventId → item.error = none →
      service.recorded w.db item.delivered.envelope.eventId = true
  | _ => True

/-- A watched event is recorded before its dead letter is. -/
def Allows (command : PipelineCommand) (w : Pipeline δ) : Prop :=
  match command with
  | .recordDeadLetter item => watched item.delivered.envelope.eventId →
      service.recorded w.db item.delivered.envelope.eventId = true
  | _ => True

/-- What is recorded stays recorded. -/
def Remembers (w w' : Pipeline δ) : Prop :=
  ∀ id, service.recorded w.db id = true → service.recorded w'.db id = true

/-- The process records no dead letter of a watched event which is not recorded. -/
abbrev Minds (relay : RelaySettings) {α : Type}
    (program : Program PipelineCommand.Answer BusError α) (w : Pipeline δ) : Prop :=
  program.Heeds (machine service relay).faulty (Timely service maxDelivery watched)
    (Remembers service) (Allows service watched) (fun _ _ => True) w

/-- Commands which say nothing about a single event. -/
def Neutral : PipelineCommand → Prop
  | .recordDeadLetter _ => False
  | _ => True

end

instance (w : Pipeline δ) (envelope : Envelope) : Decidable (w.Unpublished envelope) :=
  inferInstanceAs (Decidable (∃ row ∈ _, _ ∧ _))

instance (w : Pipeline δ) (envelope : Envelope) : Decidable (w.InStream envelope) :=
  let stream := w.streams envelope.eventType.streamFor
  decidable_of_iff (∃ entry ∈ stream.entries, entry.2 = envelope.toWire ∧
      (stream.cursor < entry.1 ∨ (stream.pending? entry.1).isSome = true)) (by
    constructor
    · rintro ⟨entry, hmem, hbody, hopen⟩
      exact ⟨entry.1, hbody ▸ hmem, hopen⟩
    · rintro ⟨id, hmem, hopen⟩
      exact ⟨(id, envelope.toWire), hmem, rfl, hopen⟩)

/-! ## Programs without dead letters -/

theorem neutral_send (command : PipelineCommand) (h : Neutral command) :
    (send command).Only Neutral := Only.perform h

theorem neutral_retryable (stream : String) (counts : List (Nat × Nat))
    (claimed : List (Nat × Option Wire)) :
    (RedisStreamsBus.retryable redisClient stream counts claimed).Only Neutral := by
  induction claimed with
  | nil => exact Only.pure []
  | cons message rest ih =>
      obtain ⟨id, fields⟩ := message
      cases fields with
      | none => exact (neutral_send (.xack stream id) trivial).bind fun _ => ih
      | some fields =>
          apply (Only.ofExcept _).bind
          intro event
          exact ih.bind fun _ => Only.pure _

theorem neutral_claimStreams (consumer : String) (minIdle count : Nat)
    (eventTypes : List EventType) :
    (RedisStreamsBus.claimStreams redisClient consumer minIdle count eventTypes).Only
      Neutral := by
  induction eventTypes with
  | nil => exact Only.pure []
  | cons eventType rest ih =>
      have hclaim : (RedisStreamsBus.claimStream redisClient consumer minIdle count
          eventType.streamFor).Only Neutral := by
        apply (neutral_send (.xpendingRange _ _ _) trivial).bind
        intro pending
        apply (Only.pure _).ite
        apply (neutral_send (.xclaim _ _ _ _) trivial).bind
        exact fun claimed => neutral_retryable _ pending claimed
      apply hclaim.bind
      intro events
      exact ih.bind fun _ => Only.pure _

theorem neutral_collect (settings : ConsumerSettings) (eventTypes : List EventType)
    (consumer : String) :
    (consumerRuntime settings eventTypes consumer).collect.Only Neutral := by
  have hread : (RedisStreamsBus.readNew redisClient eventTypes consumer
      settings.batch).Only Neutral := by
    apply (Only.pure _).ite
    apply (neutral_send (.xreadgroup _ _ _) trivial).bind
    intro response
    exact (Only.ofExcept _).bind fun _ => Only.pure _
  unfold ConsumerRuntime.collect
  apply Only.bind
  · exact (neutral_claimStreams _ _ _ _).bind fun _ => Only.pure _
  intro stale
  exact hread.bind fun _ => Only.pure _

theorem neutral_relayRunOnce (settings : RelaySettings) (maxLen replica : Nat) :
    (relayRunOnce settings maxLen replica).Only Neutral := by
  have hpublish : ∀ rows, (publishRows maxLen rows).Only Neutral := by
    intro rows
    induction rows with
    | nil => exact Only.pure []
    | cons row rest ih =>
        have hattempt : (Program.tryCatch
            (do
              RedisStreamsBus.publish redisClient maxLen row.envelope
              return (none : Option String))
            fun error => .ofExcept (publishFailed error)).Only Neutral := by
          apply Only.tryCatch
          · exact (neutral_send (.publish _ _ _) trivial).bind fun _ => Only.pure none
          · exact fun error => Only.ofExcept (publishFailed error)
        apply hattempt.bind
        intro publishError
        exact ih.bind fun _ => Only.pure _
  apply (neutral_send (.claimRows _ _) trivial).bind
  intro rows
  apply (Only.pure _).ite
  apply (hpublish rows).bind
  intro attempts
  exact (neutral_send (.markRows _ _) trivial).bind fun _ => Only.pure _

section Consumer

variable {service : Service δ} {relay : RelaySettings} {maxDelivery : Nat}
  {watched : EventId → Prop}

theorem Neutral.allows {command : PipelineCommand} (h : Neutral command)
    (w : Pipeline δ) : Allows service watched command w := by
  cases command with
  | recordDeadLetter item => exact h.elim
  | _ => trivial

theorem minds_neutral {α : Type} {program : Program PipelineCommand.Answer BusError α}
    (h : program.Only Neutral) (w : Pipeline δ) :
    Minds service maxDelivery watched relay program w :=
  h.heeds (fun _ hcommand w => hcommand.allows w) w

/-- A command changes the database by the commit of a dispatch only. -/
theorem perform_db (service : Service δ) (relay : RelaySettings)
    (turn : Fate BusError × Turn) (command : PipelineCommand) (w : Pipeline δ) :
    ((machine service relay).faulty.perform turn command w).2.db = w.db ∨
      ∃ delivered, command = .dispatch delivered ∧
        ((machine service relay).faulty.perform turn command w).2.db =
          (service.dispatch turn.2.scope delivered.envelope w.db).2 := by
  obtain ⟨fate, turn⟩ := turn
  have hcarried : (carryOut service relay turn command
      { w with clock := w.clock + turn.elapsed }).2.db = w.db ∨
      ∃ delivered, command = .dispatch delivered ∧ (carryOut service relay turn command
        { w with clock := w.clock + turn.elapsed }).2.db =
          (service.dispatch turn.scope delivered.envelope w.db).2 := by
    by_cases hcommand : ∃ delivered, command = .dispatch delivered
    · obtain ⟨delivered, rfl⟩ := hcommand
      simp only [carryOut, dispatched]
      cases turn.raises with
      | some failure => exact Or.inl rfl
      | none => exact Or.inr ⟨delivered, rfl, rfl⟩
    · left
      rw [carryOut_db fun delivered heq => hcommand ⟨delivered, heq⟩]
  cases fate with
  | refused e => exact Or.inl rfl
  | through => exact hcarried
  | lost e => exact hcarried

theorem perform_remembers (service : Service δ) (relay : RelaySettings)
    (turn : Fate BusError × Turn) (command : PipelineCommand) (w : Pipeline δ) :
    Remembers service w ((machine service relay).faulty.perform turn command w).2 := by
  intro id hid
  rcases perform_db service relay turn command w with hsame | ⟨delivered, _, hdispatched⟩
  · rw [hsame]
    exact hid
  · rw [hdispatched]
    exact service.keeps hid

/-- A dispatch which commits records its event. -/
theorem perform_records (relay : RelaySettings) {turn : Fate BusError × Turn}
    {delivered : DeliveredEvent} {w : Pipeline δ} (h : Commits service turn delivered w) :
    service.recorded ((machine service relay).faulty.perform turn (.dispatch delivered)
      w).2.db delivered.envelope.eventId = true := by
  obtain ⟨fate, turn⟩ := turn
  have hcarried : service.recorded (carryOut service relay turn (.dispatch delivered)
      { w with clock := w.clock + turn.elapsed }).2.db delivered.envelope.eventId = true := by
    have hnone : turn.raises = none := by
      have hsome := (not_or.mp h.2).1
      simpa using hsome
    have hok : (service.dispatch turn.scope delivered.envelope w.db).1 = .ok () := by
      have hdispatch := (not_or.mp h.2).2
      cases hresult : (service.dispatch turn.scope delivered.envelope w.db).1 with
      | ok _ => rfl
      | error e =>
          rw [hresult] at hdispatch
          exact absurd rfl hdispatch
    simp only [carryOut, dispatched, hnone]
    exact service.records hok
  cases fate with
  | refused e => exact absurd rfl (h.1 e)
  | through => exact hcarried
  | lost e => exact hcarried

theorem readGroups_deadLetters (consumer : String) (now count : Nat) (streams : List String)
    (w : Pipeline δ) : (readGroups consumer now count streams w).2.deadLetters =
      w.deadLetters := by
  induction streams generalizing w with
  | nil => rfl
  | cons stream rest ih => exact ih _

/-- Dead letters are recorded by one command only. -/
theorem perform_deadLetters (relay : RelaySettings) {turn : Fate BusError × Turn}
    {command : PipelineCommand} {w : Pipeline δ} {item : DeadLetter}
    (h : item ∈ ((machine service relay).faulty.perform turn command w).2.deadLetters) :
    item ∈ w.deadLetters ∨ command = .recordDeadLetter item := by
  obtain ⟨fate, turn⟩ := turn
  have hcarried : item ∈ (carryOut service relay turn command
      { w with clock := w.clock + turn.elapsed }).2.deadLetters →
      item ∈ w.deadLetters ∨ command = .recordDeadLetter item := by
    intro hitem
    cases command with
    | recordDeadLetter letter =>
        simp only [carryOut, recordedDeadLetter] at hitem
        cases hrecord : recordDeadLetter letter with
        | error e =>
            simp only [hrecord] at hitem
            exact Or.inl hitem
        | ok _ =>
            simp only [hrecord] at hitem
            rcases List.mem_append.mp hitem with hold | hnew
            · exact Or.inl hold
            · rw [List.mem_singleton.mp hnew]
              exact Or.inr rfl
    | dispatch delivered =>
        left
        simp only [carryOut, dispatched] at hitem
        cases hraises : turn.raises <;>
          · simp only [hraises] at hitem
            exact hitem
    | xreadgroup consumer streams count =>
        left
        change item ∈ (readGroups _ _ _ _ _).2.deadLetters at hitem
        rw [readGroups_deadLetters] at hitem
        exact hitem
    | _ => exact Or.inl hitem
  cases fate with
  | refused e => exact Or.inl h
  | through => exact hcarried h
  | lost e => exact hcarried h

variable (settings : ConsumerSettings) (eventTypes : List EventType) (consumer : String)

/-- A delivery is rejected when its event is recorded, or was delivered too often. -/
theorem minds_reject {delivered : DeliveredEvent} {error : Option BusError}
    {w : Pipeline δ} (h : error.isSome = true → watched delivered.envelope.eventId →
      service.recorded w.db delivered.envelope.eventId = true) :
    Minds service maxDelivery watched relay
      ((consumerRuntime settings eventTypes consumer).reject delivered error) w := by
  have hack : ∀ w', Minds service maxDelivery watched relay
      (send (.xack delivered.stream delivered.messageId)) w' :=
    minds_neutral (neutral_send _ trivial)
  apply Heeds.bind
  apply Heeds.perform trivial
  intro w₁ hothers _ turn hturn
  have hrecorded : watched delivered.envelope.eventId →
      service.recorded w₁.db delivered.envelope.eventId = true := by
    intro hwatched
    cases herror : error with
    | none => exact hturn hwatched herror
    | some e => exact hothers _ (h (by rw [herror]; rfl) hwatched)
  have hremembers := perform_remembers service relay turn
    (.xaddDeadLetter ⟨delivered, error⟩) w₁
  split
  next =>
    apply Heeds.bind
    apply Heeds.perform
    · exact fun hwatched => hremembers _ (hrecorded hwatched)
    · intro w₂ _ _ turn' _
      split
      · exact hack _
      · trivial
  next => trivial

theorem minds_handle (delivered : DeliveredEvent) (w : Pipeline δ) :
    Minds service settings.maxDelivery watched relay
      ((consumerRuntime settings eventTypes consumer).handle delivered) w := by
  unfold ConsumerRuntime.handle
  split
  · exact minds_reject settings eventTypes consumer fun h => by cases h
  · have hhandler : ∀ e w₁, (settings.maxDelivery ≤ delivered.deliveryCount →
        watched delivered.envelope.eventId →
          service.recorded w₁.db delivered.envelope.eventId = true) →
        Minds service settings.maxDelivery watched relay
          (if (consumerRuntime settings eventTypes consumer).maxDelivery ≤
              delivered.deliveryCount then
            (consumerRuntime settings eventTypes consumer).reject delivered (some e)
          else pure ()) w₁ := by
      intro e w₁ hrecorded
      split
      case isTrue hlast =>
        exact minds_reject settings eventTypes consumer fun _ => hrecorded hlast
      case isFalse => exact Heeds.pure trivial
    apply Heeds.tryCatch
    apply Heeds.bind
    apply Heeds.perform trivial
    intro w₁ _ _ turn hturn
    have hrecorded : settings.maxDelivery ≤ delivered.deliveryCount →
        watched delivered.envelope.eventId →
          service.recorded ((machine service relay).faulty.perform turn
            (.dispatch delivered) w₁).2.db delivered.envelope.eventId = true := by
      intro hlast hwatched
      rcases hturn hwatched hlast with hbefore | hcommits
      · exact perform_remembers service relay turn _ w₁ _ hbefore
      · exact perform_records relay hcommits
    split
    next =>
      apply Heeds.perform trivial
      intro w₂ hothers _ turn' _
      have hafter := perform_remembers service relay turn'
        (.xack delivered.stream delivered.messageId) w₂
      split
      · trivial
      · exact hhandler _ _ fun hlast hwatched =>
          hafter _ (hothers _ (hrecorded hlast hwatched))
    next => exact hhandler _ _ hrecorded

theorem minds_runOnce (w : Pipeline δ) :
    Minds service settings.maxDelivery watched relay
      (consumerRuntime settings eventTypes consumer).runOnce w := by
  have hall : ∀ batch w', Minds service settings.maxDelivery watched relay
      ((consumerRuntime settings eventTypes consumer).handleAll batch) w' := by
    intro batch
    induction batch with
    | nil => exact fun _ => Heeds.pure trivial
    | cons delivered rest ih =>
        intro w'
        apply Heeds.bind
        apply (minds_handle settings eventTypes consumer delivered w').mono
        intro result w₁ _
        cases result with
        | error e => trivial
        | ok _ =>
            apply Heeds.bind
            apply (ih w₁).mono
            intro result w₂ _
            cases result <;> trivial
  apply Heeds.bind
  apply (minds_neutral (neutral_collect settings eventTypes consumer) w).mono
  intro result w₁ _
  cases result with
  | error e => trivial
  | ok batch => exact hall batch w₁

end Consumer

end Pipeline

/-! ## All processes -/

namespace DeliverySystem

section

variable (service : Service δ) (settings : DeliverySettings) (watched : EventId → Prop)

def InTime (s : DeliverySystem δ) : DeliveryAction service → Prop
  | .advance id fate turn => ∀ command ∈ s.command? id,
      Pipeline.Timely service settings.consumer.maxDelivery watched (fate, turn) command
        s.shared
  | _ => True

/-- The dead letters of watched events are of recorded ones, and no process is about to
record another. -/
structure NoneGivenUp (s : DeliverySystem δ) : Prop where
  letters : ∀ item ∈ s.shared.deadLetters, watched item.delivered.envelope.eventId →
    service.recorded s.shared.db item.delivered.envelope.eventId = true
  processes : ∀ id program, s.processes id = some program →
    Pipeline.Minds service settings.consumer.maxDelivery watched settings.relay program
      s.shared

end

variable {service : Service δ} {settings : DeliverySettings} {watched : EventId → Prop}
  {s : DeliverySystem δ}

theorem NoneGivenUp.init (db : δ) :
    NoneGivenUp service settings watched (DeliverySystem.init db) where
  letters := by
    intro item hitem
    cases hitem
  processes := by
    intro id program hprogram
    cases hprogram

/-- The processes go on when nothing recorded is forgotten. -/
theorem NoneGivenUp.later (h : NoneGivenUp service settings watched s) {id : ProcessId}
    {program : Program PipelineCommand.Answer BusError Nat}
    (hprogram : s.processes id = some program) {w : Pipeline δ}
    (hremembers : Pipeline.Remembers service s.shared w) :
    Pipeline.Minds service settings.consumer.maxDelivery watched settings.relay program w := by
  have hminds := h.processes id program hprogram
  refine hminds.later (fun hw hw' id hid => hw' id (hw id hid)) hremembers ?_
  intro command next heq
  subst heq
  have hready := hminds.1
  cases command with
  | recordDeadLetter item => exact fun hwatched => hremembers _ (hready hwatched)
  | _ => trivial

theorem programOf_minds (id : ProcessId) (w : Pipeline δ) :
    Pipeline.Minds service settings.consumer.maxDelivery watched settings.relay
      (programOf service settings id) w := by
  cases id with
  | relay replica =>
      exact Pipeline.minds_neutral
        (Pipeline.neutral_relayRunOnce settings.relay settings.maxLen replica) w
  | consumer name =>
      exact Pipeline.minds_runOnce settings.consumer service.eventTypes name w

/-- A step which records no dead letter. -/
theorem NoneGivenUp.idle (h : NoneGivenUp service settings watched s) {s' : DeliverySystem δ}
    (hletters : s'.shared.deadLetters = s.shared.deadLetters)
    (hremembers : Pipeline.Remembers service s.shared s'.shared)
    (hprocesses : ∀ id program, s'.processes id = some program →
      s.processes id = some program ∨ ∃ new, program = programOf service settings new) :
    NoneGivenUp service settings watched s' where
  letters := by
    intro item hitem hwatched
    rw [hletters] at hitem
    exact hremembers _ (h.letters item hitem hwatched)
  processes := by
    intro id program hprogram
    rcases hprocesses id program hprogram with hold | ⟨new, rfl⟩
    · exact h.later hold hremembers
    · exact programOf_minds new _

/-- The database changes with another transaction, or by the commit of a dispatch. -/
theorem step_db (settings : DeliverySettings) (action : DeliveryAction service)
    (s : DeliverySystem δ) :
    (DeliverySystem.step service settings action s).shared.db = s.shared.db ∨
      (∃ tx, action = .other tx ∧
        (DeliverySystem.step service settings action s).shared.db = tx.val s.shared.db) ∨
      ∃ id fate turn delivered, action = .advance id fate turn ∧
        s.command? id = some (.dispatch delivered) ∧
        (DeliverySystem.step service settings action s).shared.db =
          (service.dispatch turn.scope delivered.envelope s.shared.db).2 := by
  cases action with
  | enqueue envelope =>
      left
      simp only [DeliverySystem.step]
      cases enqueueEvent s.shared.outbox envelope <;> rfl
  | other tx => exact Or.inr (Or.inl ⟨tx, rfl, rfl⟩)
  | start id =>
      left
      simp only [DeliverySystem.step]
      cases s.processes id <;> rfl
  | stop id =>
      left
      cases id <;> rfl
  | advance id fate turn =>
      simp only [DeliverySystem.step, command?]
      cases hid : s.processes id with
      | none => exact Or.inl rfl
      | some program =>
          cases program with
          | done result => exact Or.inl rfl
          | call command next =>
              rcases Pipeline.perform_db service settings.relay (fate, turn) command
                s.shared with hsame | ⟨delivered, rfl, hdispatched⟩
              · exact Or.inl hsame
              · refine Or.inr (Or.inr ⟨id, fate, turn, delivered, rfl, ?_, hdispatched⟩)
                simp only [hid]

theorem NoneGivenUp.step (h : NoneGivenUp service settings watched s)
    (action : DeliveryAction service) (hintime : InTime service settings watched s action) :
    NoneGivenUp service settings watched (DeliverySystem.step service settings action s) := by
  cases action with
  | enqueue envelope =>
      simp only [DeliverySystem.step]
      cases enqueueEvent s.shared.outbox envelope with
      | error e => exact h
      | ok outbox => exact h.idle rfl (fun _ h => h) fun _ _ hprogram => Or.inl hprogram
  | other tx =>
      refine h.idle rfl ?_ fun _ _ hprogram => Or.inl hprogram
      exact fun id hid => tx.property _ id hid
  | start id =>
      simp only [DeliverySystem.step]
      cases hid : s.processes id with
      | some program => exact h
      | none =>
          refine h.idle rfl (fun _ h => h) ?_
          intro other program hprogram
          apply (setProcess_cases hprogram).imp (fun h => h)
          intro hnew
          exact ⟨id, (Option.some.inj hnew).symm⟩
  | stop id =>
      have hrelease : (release id s.shared).deadLetters = s.shared.deadLetters ∧
          (release id s.shared).db = s.shared.db := by
        cases id <;> exact ⟨rfl, rfl⟩
      refine h.idle hrelease.1 ?_ ?_
      · intro event hevent
        change service.recorded (release id s.shared).db event = true
        rw [hrelease.2]
        exact hevent
      · intro other program hprogram
        apply (setProcess_cases hprogram).imp (fun h => h)
        intro hnew
        cases hnew
  | advance id fate turn =>
      cases hid : s.processes id with
      | none =>
          simp only [DeliverySystem.step, hid]
          exact h
      | some program =>
          cases program with
          | done result =>
              simp only [DeliverySystem.step, hid]
              exact h
          | call command next =>
              have hcommand : s.command? id = some command := by
                simp only [command?, hid]
              have hminds := h.processes id _ hid
              have hremembers := Pipeline.perform_remembers service
                settings.relay (fate, turn) command s.shared
              have hnext := hminds.2 s.shared (fun _ h => h) hminds.1 (fate, turn)
                (hintime command hcommand)
              simp only [DeliverySystem.step, hid]
              constructor
              · intro item hitem hwatched
                rcases Pipeline.perform_deadLetters settings.relay hitem with hold | rfl
                · exact hremembers _ (h.letters item hold hwatched)
                · exact hremembers _ (hminds.1 hwatched)
              · intro other program hprogram
                by_cases hother : other = id
                · subst hother
                  rw [setProcess_self, Option.some.injEq] at hprogram
                  rw [← hprogram]
                  exact hnext
                · have hold : s.processes other = some program := by
                    simpa [setProcess, Function.update_of_ne hother] using hprogram
                  exact h.later hold hremembers

/-- A watched event which was committed is not published, or in its stream and not
acknowledged, or recorded. -/
theorem NoneGivenUp.handled (h : NoneGivenUp service settings watched s)
    (hinv : Inv service settings s) {envelope : Envelope}
    (hmem : envelope ∈ s.shared.outbox.envelopes) (hwatched : watched envelope.eventId) :
    s.shared.Unpublished envelope ∨ s.shared.InStream envelope ∨
      service.recorded s.shared.db envelope.eventId = true := by
  rcases hinv.accounted.kept hmem with hopen | hstream | hsettled
  · exact Or.inl hopen
  · exact Or.inr (Or.inl hstream)
  · rcases hsettled with hrecorded | ⟨item, hitem, hid⟩
    · exact Or.inr (Or.inr hrecorded)
    · rw [← hid] at hwatched ⊢
      exact Or.inr (Or.inr (h.letters item hitem hwatched))

/-- In every run in which no append evicts an unsettled event and the last permitted
dispatch of a watched event finds it recorded or commits, a watched event which has left
the outbox and its stream is recorded by the consuming service. -/
theorem watched_events_are_handled (db : δ) {actions : List (DeliveryAction service)}
    (hspared : AdmittedRun (DeliverySystem.step service settings) (Spared service)
      (DeliverySystem.init db) actions)
    (hintime : AdmittedRun (DeliverySystem.step service settings)
      (InTime service settings watched) (DeliverySystem.init db) actions) :
    let w := (runSteps (DeliverySystem.step service settings) (DeliverySystem.init db)
      actions).shared
    ∀ envelope ∈ w.outbox.envelopes, watched envelope.eventId →
      ¬w.Unpublished envelope → ¬w.InStream envelope →
        service.recorded w.db envelope.eventId = true := by
  have hnone := AdmittedRun.invariant (I := NoneGivenUp service settings watched)
    (fun _ action h hadmitted => h.step action hadmitted) (NoneGivenUp.init db) hintime
  have hinv := AdmittedRun.invariant (I := Inv service settings)
    (fun _ action h hadmitted => h.step action hadmitted) (Inv.init db) hspared
  intro w envelope hmem hwatched hpublished hstream
  rcases hnone.handled hinv hmem hwatched with hopen | hin | hrecorded
  · exact absurd hopen hpublished
  · exact absurd hin hstream
  · exact hrecorded

/-! ### A deposit which is credited at the third delivery -/

instance (fate : Fate BusError) : Decidable (∀ e, fate ≠ .refused e) :=
  match fate with
  | .refused e => .isFalse fun h => h e rfl
  | .through => .isTrue fun _ h => by cases h
  | .lost _ => .isTrue fun _ h => by cases h

instance (service : Service δ) (turn : Fate BusError × Turn) (delivered : DeliveredEvent)
    (w : Pipeline δ) : Decidable (Pipeline.Commits service turn delivered w) :=
  inferInstanceAs (Decidable ((∀ e, turn.1 ≠ .refused e) ∧ ¬_))

instance [DecidablePred watched] (maxDelivery : Nat) (turn : Fate BusError × Turn)
    (command : PipelineCommand) (w : Pipeline δ) :
    Decidable (Pipeline.Timely service maxDelivery watched turn command w) :=
  match command with
  | .dispatch _ => inferInstanceAs (Decidable (_ → _ → _ = true ∨ Pipeline.Commits ..))
  | .xaddDeadLetter _ => inferInstanceAs (Decidable (_ → _ = none → _ = true))
  | .claimRows .. | .publish .. | .markRows .. | .xpendingRange .. | .xclaim ..
  | .xreadgroup .. | .xack .. | .recordDeadLetter _ => .isTrue trivial

instance [DecidablePred watched] (s : DeliverySystem δ) (action : DeliveryAction service) :
    Decidable (InTime service settings watched s action) :=
  match action with
  | .enqueue _ | .other _ | .start _ | .stop _ => .isTrue trivial
  | .advance _ _ _ => inferInstanceAs (Decidable (∀ command ∈ _, Pipeline.Timely ..))

/-- One run of the consumer, whose handler may raise. -/
def polled (raises : Option Failure) : List (DeliveryAction Wallet.service) :=
  Observed.pollWith raises (List.replicate 12 .through)

/-- The handler raises at the first two deliveries. -/
def handledLate (envelope : Envelope) : List (DeliveryAction Wallet.service) :=
  cycle Wallet.service envelope (quietTurn 0) ++ polled (some .valueError) ++
    polled (some .valueError) ++ polled none

/-- With the default settings, from the wallet of `creditedDb`. -/
def afterLate (envelope : Envelope) : Pipeline Wallet.SoundDb :=
  (runSteps (DeliverySystem.step Wallet.service .standard)
    (DeliverySystem.init Observed.creditedDb) (handledLate envelope)).shared

theorem handledLate_runs :
    ∃ envelope ∈ Observed.creditEvent,
      AdmittedRun (DeliverySystem.step Wallet.service .standard) (Spared Wallet.service)
        (DeliverySystem.init Observed.creditedDb) (handledLate envelope) ∧
      AdmittedRun (DeliverySystem.step Wallet.service .standard)
        (InTime Wallet.service .standard (· = envelope.eventId))
        (DeliverySystem.init Observed.creditedDb) (handledLate envelope) ∧
      envelope ∈ (afterLate envelope).outbox.envelopes ∧
      ¬(afterLate envelope).Unpublished envelope ∧ ¬(afterLate envelope).InStream envelope := by
  decide +kernel

theorem late_event_is_handled :
    ∃ envelope ∈ Observed.creditEvent,
      Wallet.service.recorded (afterLate envelope).db envelope.eventId = true := by
  obtain ⟨envelope, henvelope, hspared, hintime, hmem, hpublished, hread⟩ := handledLate_runs
  unfold afterLate at hmem hpublished hread ⊢
  have hhandled := watched_events_are_handled Observed.creditedDb hspared hintime
  exact ⟨envelope, henvelope, hhandled envelope hmem rfl hpublished hread⟩

end DeliverySystem

end CryptoWallet
