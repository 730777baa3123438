import CryptoWallet.Pipeline

/-!
# No committed event is lost

Replicas of the relay and consumers take turns; each can stop for good between two
commands, and each command can fail, with or without its effect.  An event whose
outbox row is marked as published is in its stream, unread or pending, or the
consuming service has recorded it, handled or dead lettered.

Every command keeps this except one.  Appending to a stream with a limit evicts the
oldest entries although nobody has dealt with them.
-/

namespace CryptoWallet

open Program

variable {δ : Type}

/-! ## Where an event is -/

namespace Pipeline

section

variable (service : Service δ) (w : Pipeline δ)

/-- The consuming service knows the event: handled, or as a dead letter. -/
def Settled (id : EventId) : Prop :=
  service.recorded w.db id = true ∨
    ∃ item ∈ w.deadLetters, item.delivered.envelope.eventId = id

def Unpublished (envelope : Envelope) : Prop :=
  ∃ row ∈ w.outbox.rows, row.envelope = envelope ∧ row.publishedAt = none

/-- In the stream of its type: readable for the group, or pending. -/
def InStream (envelope : Envelope) : Prop :=
  ∃ id, (w.streams envelope.eventType.streamFor).Outstanding id envelope.toWire

def Sent (envelope : Envelope) : Prop :=
  w.InStream envelope ∨ w.Settled service envelope.eventId

/-- The event is somewhere. -/
def Kept (envelope : Envelope) : Prop :=
  w.Unpublished envelope ∨ w.InStream envelope ∨ w.Settled service envelope.eventId

/-- What is marked as published was sent. -/
def Accounted : Prop :=
  ∀ row ∈ w.outbox.rows, row.publishedAt.isSome = true → w.Sent service row.envelope

end

variable {service : Service δ} {relay : RelaySettings} {w w' w'' : Pipeline δ}

theorem Accounted.kept (h : w.Accounted service) {envelope : Envelope}
    (hmem : envelope ∈ w.outbox.envelopes) : w.Kept service envelope := by
  obtain ⟨row, hrow, rfl⟩ := List.mem_map.mp hmem
  cases hpublished : row.publishedAt with
  | none => exact Or.inl ⟨row, hrow, rfl, hpublished⟩
  | some time => exact Or.inr (h row hrow (by rw [hpublished]; rfl))

/-! ## What every process keeps to -/

/-- Ids of entries are not reused, events which are settled or sent stay so, the outbox
grows, and what is marked as published was sent. -/
structure Steady (service : Service δ) (w w' : Pipeline δ) : Prop where
  names : ∀ stream id fields, (w.streams stream).Names id fields →
    (w'.streams stream).Names id fields
  settled : ∀ id, w.Settled service id → w'.Settled service id
  sent : ∀ envelope, w.Sent service envelope → w'.Sent service envelope
  outbox : w.outbox.Grows w'.outbox
  accounted : w.Accounted service → w'.Accounted service

theorem Steady.refl (w : Pipeline δ) : Steady service w w :=
  ⟨fun _ _ _ h => h, fun _ h => h, fun _ h => h, .refl w.outbox, fun h => h⟩

theorem Steady.trans (h : Steady service w w') (h' : Steady service w' w'') :
    Steady service w w'' where
  names stream id fields hnames := h'.names stream id fields (h.names stream id fields hnames)
  settled id hid := h'.settled id (h.settled id hid)
  sent envelope hsent := h'.sent envelope (h.sent envelope hsent)
  outbox := h.outbox.trans h'.outbox
  accounted haccounted := h'.accounted (h.accounted haccounted)

/-- A change of the streams and of what is settled. -/
theorem Steady.of_outbox (hrows : w'.outbox = w.outbox)
    (hnames : ∀ stream id fields, (w.streams stream).Names id fields →
      (w'.streams stream).Names id fields)
    (hsettled : ∀ id, w.Settled service id → w'.Settled service id)
    (hsent : ∀ envelope, w.Sent service envelope → w'.Sent service envelope) :
    Steady service w w' where
  names := hnames
  settled := hsettled
  sent := hsent
  outbox := by rw [hrows]; exact .refl _
  accounted h := by
    intro row hrow hpublished
    rw [hrows] at hrow
    exact hsent _ (h row hrow hpublished)

/-- A change of one stream which keeps the outstanding entries of unsettled events. -/
theorem Steady.of_stream {stream : String} {group : StreamGroup Wire}
    (hnames : ∀ id fields, (w.streams stream).Names id fields → group.Names id fields)
    (houtstanding : ∀ id envelope,
      (w.streams stream).Outstanding id (Envelope.toWire envelope) →
        group.Outstanding id envelope.toWire ∨ w.Settled service envelope.eventId) :
    Steady service w (w.setStream stream group) := by
  have hgroup : ∀ other, (w.setStream stream group).streams other =
      if other = stream then group else w.streams other := by
    intro other
    exact Function.update_apply w.streams stream group other
  refine .of_outbox rfl ?_ (fun _ h => h) ?_
  · intro other id fields h
    rw [hgroup]
    split
    next hsame => exact hnames id fields (hsame ▸ h)
    next => exact h
  · intro envelope hsent
    rcases hsent with ⟨id, hid⟩ | hsettled
    · by_cases hsame : envelope.eventType.streamFor = stream
      · rcases houtstanding id envelope (hsame ▸ hid) with hkept | hsettled
        · exact Or.inl ⟨id, by rw [hgroup, if_pos hsame]; exact hkept⟩
        · exact Or.inr hsettled
      · exact Or.inl ⟨id, by rw [hgroup, if_neg hsame]; exact hid⟩
    · exact Or.inr hsettled

/-- A change of what the consuming service has settled. -/
theorem Steady.of_settled (hrows : w'.outbox = w.outbox) (hstreams : w'.streams = w.streams)
    (hsettled : ∀ id, w.Settled service id → w'.Settled service id) :
    Steady service w w' := by
  refine .of_outbox hrows ?_ hsettled ?_
  · intro stream id fields h
    rw [hstreams]
    exact h
  · intro envelope hsent
    unfold Sent InStream
    rw [hstreams]
    exact hsent.imp id (hsettled _)

/-- The clock, the locks and the journal do not matter. -/
theorem Steady.of_same (hrows : w'.outbox = w.outbox) (hstreams : w'.streams = w.streams)
    (hdb : w'.db = w.db) (hletters : w'.deadLetters = w.deadLetters) :
    Steady service w w' := by
  refine .of_settled hrows hstreams ?_
  intro id h
  unfold Settled
  rw [hdb, hletters]
  exact h

/-- The events whose entries an append evicts although the group still has to deal with
them. -/
def evictedBy (turn : Fate BusError × Turn) (command : PipelineCommand) (w : Pipeline δ) :
    List Envelope :=
  match command, turn.1 with
  | .publish _ _ _, .refused _ => []
  | .publish stream fields maxLen, _ =>
    (((w.streams stream).evicted maxLen turn.2.evicted fields).filter fun entry =>
      (w.streams stream).cursor < entry.1 ||
        ((w.streams stream).pending? entry.1).isSome).filterMap (·.2.envelope?)
  | _, _ => []

def Spares (service : Service δ) (turn : Fate BusError × Turn) (command : PipelineCommand)
    (w : Pipeline δ) : Prop :=
  ∀ envelope ∈ w.evictedBy turn command, w.Settled service envelope.eventId

instance (id : EventId) : Decidable (w.Settled service id) :=
  inferInstanceAs (Decidable (_ ∨ _))

instance (turn : Fate BusError × Turn) (command : PipelineCommand) :
    Decidable (Spares service turn command w) :=
  inferInstanceAs (Decidable (∀ envelope ∈ _, _))

/-! ## The commands -/

/-- The program stays within the relation, whatever fails. -/
abbrev Holds (service : Service δ) (relay : RelaySettings) {α : Type}
    (post : α → Pipeline δ → Prop)
    (program : Program PipelineCommand.Answer BusError α) (w : Pipeline δ) : Prop :=
  program.Keeps (machine service relay).faulty (Spares service) (Steady service) post w

/-- Enough for a command: what it does when it goes through. -/
theorem holds_send {command : PipelineCommand} {post : command.Answer → Pipeline δ → Prop}
    (h : ∀ w', Steady service w w' → ∀ turn, Spares service (.through, turn) command w' →
      Steady service w' (carryOut service relay turn command w').2 ∧
        ∀ a, (carryOut service relay turn command w').1 = .ok a →
          post a (carryOut service relay turn command w').2) :
    Holds service relay post (send command) w := by
  rintro w' hw ⟨fate, turn⟩ hturn
  have htick : Steady service w' { w' with clock := w'.clock + turn.elapsed } :=
    .of_same rfl rfl rfl rfl
  cases fate with
  | refused e => exact ⟨.refl w', trivial⟩
  | through =>
      obtain ⟨hsteady, hpost⟩ := h _ (hw.trans htick) turn hturn
      exact ⟨htick.trans hsteady, .ofExcept hpost⟩
  | lost e =>
      have hspares : Spares service (.through, turn) command
          { w' with clock := w'.clock + turn.elapsed } := by
        cases command <;> exact hturn
      exact ⟨htick.trans (h _ (hw.trans htick) turn hspares).1, trivial⟩

theorem holds_xpendingRange (stream : String) (count idle : Nat) :
    Holds service relay (fun _ _ => True) (send (.xpendingRange stream count idle)) w :=
  holds_send fun w' _ _ _ => ⟨.refl w', fun _ _ => trivial⟩

theorem steady_noted (w : Pipeline δ) (happenings : List Happening) :
    Steady service w (w.noted happenings) := .of_same rfl rfl rfl rfl

theorem holds_xclaim (stream consumer : String) (minIdle : Nat) (ids : List Nat) :
    Holds service relay
      (fun claimed w' => ∀ message ∈ claimed, ∃ fields,
        message.2 = some fields ∧ (w'.streams stream).Names message.1 fields)
      (send (.xclaim stream consumer minIdle ids)) w := by
  apply holds_send
  intro w' _ turn _
  have hstream : Steady service w' (w'.setStream stream
      ((w'.streams stream).claim consumer w'.clock minIdle ids).1) :=
    .of_stream (fun _ _ h => h) fun _ _ h => Or.inl (h.claim consumer _ minIdle ids)
  have hnoted : Steady service (w'.setStream stream
        ((w'.streams stream).claim consumer w'.clock minIdle ids).1)
      (w'.claimGroup stream consumer w'.clock minIdle ids).2 := .of_same rfl rfl rfl rfl
  have hsteady := hstream.trans hnoted
  refine ⟨hsteady, ?_⟩
  intro claimed hclaimed message hmessage
  cases hclaimed
  obtain ⟨entry, hentry, rfl⟩ := List.mem_map.mp hmessage
  exact ⟨entry.2, rfl, hsteady.names stream _ _
    (StreamGroup.names_of_mem (StreamGroup.mem_claim hentry))⟩

theorem readGroups_steady (service : Service δ) (consumer : String) (now count : Nat)
    (streams : List String) (w : Pipeline δ) :
    Steady service w (readGroups consumer now count streams w).2 ∧
      ∀ answer ∈ (readGroups consumer now count streams w).1, ∀ message ∈ answer.2,
        ((readGroups consumer now count streams w).2.streams answer.1).Names
          message.1 message.2 := by
  induction streams generalizing w with
  | nil => exact ⟨.refl w, by simp [readGroups]⟩
  | cons stream rest ih =>
      have hstream : Steady service w (w.setStream stream
          ((w.streams stream).read consumer now count).1) :=
        .of_stream (fun _ _ h => h) fun _ _ h => Or.inl (h.read consumer now count)
      obtain ⟨hrest, hnames⟩ := ih ((w.setStream stream
        ((w.streams stream).read consumer now count).1).noted
          (((w.streams stream).read consumer now count).2.map fun message =>
            .handedOut stream message.1 message.2))
      have hfirst := hstream.trans ((steady_noted _ _).trans hrest)
      refine ⟨hfirst, ?_⟩
      intro answer hanswer
      rcases List.mem_cons.mp hanswer with rfl | hlater
      · intro message hmessage
        exact hfirst.names stream _ _
          (StreamGroup.names_of_mem (StreamGroup.mem_fresh hmessage).1)
      · exact hnames answer hlater

theorem holds_xreadgroup (consumer : String) (streams : List String) (count : Nat) :
    Holds service relay
      (fun groups w' => ∀ group ∈ groups, ∀ message ∈ group.2,
        (w'.streams group.1).Names message.1 message.2)
      (send (.xreadgroup consumer streams count)) w := by
  apply holds_send
  intro w' _ turn _
  obtain ⟨hsteady, hnames⟩ :=
    readGroups_steady service consumer w'.clock count streams w'
  refine ⟨hsteady, ?_⟩
  intro groups hgroups group hgroup
  cases hgroups
  exact hnames group (List.mem_filter.mp hgroup).1

/-- A message of the stream whose event is settled can be acknowledged. -/
theorem holds_xack {stream : String} {id : Nat} {envelope : Envelope}
    (hnames : (w.streams stream).Names id envelope.toWire)
    (hsettled : w.Settled service envelope.eventId) :
    Holds service relay (fun _ _ => True) (send (.xack stream id)) w := by
  apply holds_send
  intro w' hw _ _
  refine ⟨.of_stream (fun _ _ h => h) ?_, fun _ _ => trivial⟩
  intro other event hother
  by_cases hsame : other = id
  · right
    have hwire := (hw.names stream id _ hnames).2 _ (hsame ▸ hother.1)
    have hevent : event = envelope := Wire.body.inj hwire
    rw [hevent]
    exact hw.settled _ hsettled
  · exact Or.inl (hother.ack hsame)

theorem holds_xaddDeadLetter (item : DeadLetter) :
    Holds service relay (fun _ _ => True) (send (.xaddDeadLetter item)) w :=
  holds_send fun _ _ _ _ => ⟨.of_same rfl rfl rfl rfl, fun _ _ => trivial⟩

theorem holds_recordDeadLetter (item : DeadLetter) :
    Holds service relay
      (fun _ w' => w'.Settled service item.delivered.envelope.eventId)
      (send (.recordDeadLetter item)) w := by
  apply holds_send
  intro w' _ _ _
  simp only [carryOut, recordedDeadLetter]
  split
  next hrecorded =>
    refine ⟨.of_settled rfl rfl ?_, ?_⟩
    · intro id hid
      rcases hid with hdb | ⟨other, hother, hevent⟩
      · exact Or.inl hdb
      · exact Or.inr ⟨other, List.mem_append.mpr (Or.inl hother), hevent⟩
    · intro _ _
      exact Or.inr ⟨item, List.mem_append.mpr (Or.inr (by simp)), rfl⟩
  next failure hfailed => exact ⟨.refl w', fun _ h => by cases h⟩

theorem holds_dispatch (delivered : DeliveredEvent) :
    Holds service relay
      (fun _ w' => w'.Settled service delivered.envelope.eventId)
      (send (.dispatch delivered)) w := by
  apply holds_send
  intro w' _ turn _
  simp only [carryOut, dispatched]
  cases turn.raises with
  | some failure => exact ⟨steady_noted _ _, fun _ h => by cases h⟩
  | none =>
      refine ⟨.of_settled rfl rfl ?_, ?_⟩
      · intro id hid
        exact hid.imp service.keeps fun h => h
      · intro _ h
        cases hresult : (service.dispatch turn.scope delivered.envelope w'.db).1 with
        | ok _ => exact Or.inl (service.records hresult)
        | error e =>
            simp only [hresult, Except.mapError] at h
            cases h

/-! ### The outbox -/

theorem holds_claimRows (replica limit : Nat) :
    Holds service relay
      (fun rows w' => ∀ row ∈ rows, row.envelope ∈ w'.outbox.envelopes)
      (send (.claimRows replica limit)) w := by
  apply holds_send
  intro w' _ turn _
  refine ⟨.of_same rfl rfl rfl rfl, ?_⟩
  intro rows hrows row hrow
  cases hrows
  exact List.mem_map_of_mem (List.mem_filter.mp (List.mem_of_mem_take hrow)).1

theorem holds_publish (envelope : Envelope) (maxLen : Nat) :
    Holds service relay (fun _ w' => w'.Sent service envelope)
      (send (.publish envelope.eventType.streamFor envelope.toWire maxLen)) w := by
  apply holds_send
  intro w' _ turn hspares
  -- an entry which is evicted and still outstanding belongs to a settled event
  have hevicted : ∀ id event, (id, Envelope.toWire event) ∈
      (w'.streams envelope.eventType.streamFor).evicted maxLen turn.evicted envelope.toWire →
      ((w'.streams envelope.eventType.streamFor).cursor < id ∨
        ((w'.streams envelope.eventType.streamFor).pending? id).isSome = true) →
      w'.Settled service event.eventId :=
    fun id event hmem hopen => hspares event (List.mem_filterMap.mpr
      ⟨(id, event.toWire), List.mem_filter.mpr ⟨hmem, by simpa using hopen⟩, rfl⟩)
  refine ⟨.of_stream (fun _ _ h => h.add maxLen turn.evicted _) ?_, ?_⟩
  · intro id event hid
    by_cases hmem : (id, Envelope.toWire event) ∈
        (w'.streams envelope.eventType.streamFor).evicted maxLen turn.evicted envelope.toWire
    · exact Or.inr (hevicted id event hmem hid.2)
    · exact Or.inl (hid.add hmem)
  · intro _ _
    have hgroup : (w'.setStream envelope.eventType.streamFor
        ((w'.streams envelope.eventType.streamFor).add maxLen turn.evicted
          envelope.toWire)).streams envelope.eventType.streamFor =
        (w'.streams envelope.eventType.streamFor).add maxLen turn.evicted envelope.toWire :=
      Function.update_self ..
    by_cases hmem : ((w'.streams envelope.eventType.streamFor).lastId + 1, envelope.toWire) ∈
        (w'.streams envelope.eventType.streamFor).evicted maxLen turn.evicted envelope.toWire
    · refine Or.inr (hevicted _ envelope hmem (Or.inl ?_))
      exact Nat.lt_succ_of_le (w'.streams envelope.eventType.streamFor).cursorLe
    · refine Or.inl ⟨(w'.streams envelope.eventType.streamFor).lastId + 1, ?_⟩
      simp only [carryOut, hgroup]
      exact StreamGroup.outstanding_add _ hmem

theorem markRows_envelopes (w : Pipeline δ) (relay : RelaySettings) (now replica : Nat)
    (attempts : List (EventId × Option String)) :
    (w.markRows relay now replica attempts).outbox.envelopes = w.outbox.envelopes := by
  simp only [Outbox.envelopes, markRows, Table.mapRows_rows, List.map_map]
  apply List.map_congr_left
  intro row _
  simp only [Function.comp]
  split
  · exact row.attempted_envelope relay now _
  · rfl

/-- Rows are marked as published which were sent. -/
theorem holds_markRows {attempts : List (EventId × Option String)} (replica : Nat)
    (hsent : ∀ id, attempts.lookup id = some none → ∃ envelope ∈ w.outbox.envelopes,
      envelope.eventId = id ∧ w.Sent service envelope) :
    Holds service relay (fun _ _ => True) (send (.markRows replica attempts)) w := by
  apply holds_send
  intro w' hw turn _
  refine ⟨⟨fun _ _ _ h => h, fun _ h => h, fun _ h => h, ?_, ?_⟩, fun _ _ => trivial⟩
  · have hsame := markRows_envelopes w' relay turn.scope.now replica attempts
    exact ⟨[], by rw [List.append_nil]; exact hsame.symm⟩
  · intro haccounted row' hrow' hpublished
    simp only [carryOut, markRows, Table.mapRows_rows, List.mem_map] at hrow'
    obtain ⟨row, hrow, rfl⟩ := hrow'
    cases hattempt : attempts.lookup row.eventId with
    | none =>
        simp only [hattempt] at hpublished ⊢
        exact haccounted row hrow hpublished
    | some publishError =>
        simp only [hattempt, OutboxRow.attempted_envelope] at hpublished ⊢
        cases publishError with
        | some error => exact haccounted row hrow hpublished
        | none =>
            obtain ⟨envelope, hmem, hid, hsent⟩ := hsent _ hattempt
            have hmem' := List.IsPrefix.subset hw.outbox hmem
            obtain ⟨other, hother, rfl⟩ := List.mem_map.mp hmem'
            have hsame : other = row := w'.outbox.eq_of_mem_of_key_eq hother hrow hid
            rw [← hsame]
            exact hw.sent _ hsent

/-! ## The programs -/

/-- The delivery is of the message its stream has under this id. -/
def Genuine (w : Pipeline δ) (delivered : DeliveredEvent) : Prop :=
  (w.streams delivered.stream).Names delivered.messageId delivered.envelope.toWire

theorem Genuine.later {delivered : DeliveredEvent} (h : w.Genuine delivered)
    (hw : Steady service w w') : w'.Genuine delivered :=
  hw.names _ _ _ h

theorem genuine_deliveredEvent {stream : String} {id count : Nat} {fields : Wire}
    {delivered : DeliveredEvent} (hnames : (w.streams stream).Names id fields)
    (h : RedisStreamsBus.deliveredEvent stream id fields count = .ok delivered) :
    w.Genuine delivered := by
  cases fields with
  | body envelope =>
      cases h
      exact hnames
  | other text => cases h

/-! ### The consumer -/

theorem holds_retryable (stream : String) (counts : List (Nat × Nat))
    {claimed : List (Nat × Option Wire)} {w : Pipeline δ}
    (hclaimed : ∀ message ∈ claimed, ∃ fields, message.2 = some fields ∧
      (w.streams stream).Names message.1 fields) :
    Holds service relay (fun events w' => ∀ d ∈ events, w'.Genuine d)
      (RedisStreamsBus.retryable redisClient stream counts claimed) w := by
  induction claimed generalizing w with
  | nil => exact Keeps.pure (by simp)
  | cons message rest ih =>
      obtain ⟨fields, hfields, hnames⟩ := hclaimed message List.mem_cons_self
      obtain ⟨id, answer⟩ := message
      cases hfields
      have hrest : ∀ message ∈ rest, ∃ fields, message.2 = some fields ∧
          (w.streams stream).Names message.1 fields :=
        fun message hmessage => hclaimed message (List.mem_cons_of_mem _ hmessage)
      apply Keeps.bind (P := fun d w' => w' = w ∧ w.Genuine d)
      · exact Keeps.ofExcept fun d hd => ⟨rfl, genuine_deliveredEvent hnames hd⟩
      rintro d w' ⟨rfl, hd⟩
      have hframed := (ih hrest).frame (F := fun w' => w'.Genuine d)
        (fun _ _ hw h => h.later hw) hd
      apply hframed.bind
      rintro events w' ⟨hevents, hd⟩
      apply Keeps.pure
      intro d' hd'
      rcases List.mem_cons.mp hd' with rfl | hmem
      · exact hd
      · exact hevents d' hmem

theorem holds_claimStream (consumer : String) (minIdle count : Nat) (stream : String) :
    Holds service relay (fun events w' => ∀ d ∈ events, w'.Genuine d)
      (RedisStreamsBus.claimStream redisClient consumer minIdle count stream) w := by
  apply (holds_xpendingRange stream count minIdle).bind
  intro pending w' _
  split
  · exact Keeps.pure (by simp)
  · apply (holds_xclaim stream consumer minIdle (pending.map Prod.fst)).bind
    intro claimed w' hclaimed
    exact holds_retryable stream pending hclaimed

theorem holds_claimStreams (consumer : String) (minIdle count : Nat)
    (eventTypes : List EventType) (w : Pipeline δ) :
    Holds service relay (fun events w' => ∀ d ∈ events, w'.Genuine d)
      (RedisStreamsBus.claimStreams redisClient consumer minIdle count eventTypes) w := by
  induction eventTypes generalizing w with
  | nil => exact Keeps.pure (by simp)
  | cons eventType rest ih =>
      apply (holds_claimStream consumer minIdle count eventType.streamFor).bind
      intro events w' hevents
      have hframed := (ih w').frame (F := fun w' => ∀ d ∈ events, w'.Genuine d)
        (fun _ _ hw h d hd => (h d hd).later hw) hevents
      apply hframed.bind
      rintro others w' ⟨hothers, hevents⟩
      apply Keeps.pure
      intro d hd
      exact (List.mem_append.mp hd).elim (hevents d) (hothers d)

theorem holds_readNew (eventTypes : List EventType) (consumer : String) (count : Nat) :
    Holds service relay (fun events w' => ∀ d ∈ events, w'.Genuine d)
      (RedisStreamsBus.readNew redisClient eventTypes consumer count) w := by
  unfold RedisStreamsBus.readNew
  split
  · exact Keeps.pure (by simp)
  · apply (holds_xreadgroup consumer (eventTypes.map EventType.streamFor) count).bind
    intro groups w' hgroups
    apply Keeps.bind (P := fun events w₁ => w₁ = w' ∧ ∀ d ∈ events.flatten, w'.Genuine d)
    · apply Keeps.ofExcept
      intro events hevents
      refine ⟨rfl, ?_⟩
      intro d hd
      obtain ⟨deliveries, hdeliveries, hd⟩ := List.mem_flatten.mp hd
      obtain ⟨group, hgroup, hgroup'⟩ := mem_of_mapM_ok hevents hdeliveries
      obtain ⟨message, hmessage, hd'⟩ := mem_of_mapM_ok hgroup' hd
      exact genuine_deliveredEvent (hgroups group hgroup message hmessage) hd'
    · rintro events _ ⟨rfl, hevents⟩
      exact Keeps.pure hevents

/-- A rejected delivery is recorded before it is acknowledged. -/
theorem holds_reject (settings : ConsumerSettings) (eventTypes : List EventType)
    (consumer : String) {delivered : DeliveredEvent} (hgenuine : w.Genuine delivered)
    (error : Option BusError) :
    Holds service relay (fun _ _ => True)
      ((consumerRuntime settings eventTypes consumer).reject delivered error) w := by
  have hstay : ∀ w w' : Pipeline δ, Steady service w w' → w.Genuine delivered →
      w'.Genuine delivered := fun _ _ hw h => h.later hw
  apply ((holds_xaddDeadLetter ⟨delivered, error⟩).frame hstay hgenuine).bind
  rintro _ w' ⟨_, hgenuine⟩
  apply ((holds_recordDeadLetter ⟨delivered, error⟩).frame hstay hgenuine).bind
  rintro _ w' ⟨hsettled, hgenuine⟩
  exact holds_xack hgenuine hsettled

/-- A delivery is acknowledged once its event is settled. -/
theorem holds_handle (settings : ConsumerSettings) (eventTypes : List EventType)
    (consumer : String) {delivered : DeliveredEvent} (hgenuine : w.Genuine delivered) :
    Holds service relay (fun _ _ => True)
      ((consumerRuntime settings eventTypes consumer).handle delivered) w := by
  have hstay : ∀ w w' : Pipeline δ, Steady service w w' → w.Genuine delivered →
      w'.Genuine delivered := fun _ _ hw h => h.later hw
  unfold ConsumerRuntime.handle
  split
  · exact holds_reject settings eventTypes consumer hgenuine none
  · apply Keeps.tryCatch hstay hgenuine
    · apply ((holds_dispatch delivered).frame hstay hgenuine).bind
      rintro _ w' ⟨hsettled, hgenuine⟩
      exact holds_xack hgenuine hsettled
    · intro e w' hgenuine
      split
      · exact holds_reject settings eventTypes consumer hgenuine (some e)
      · exact Keeps.pure trivial

theorem holds_handleAll (settings : ConsumerSettings) (eventTypes : List EventType)
    (consumer : String) {batch : List DeliveredEvent} {w : Pipeline δ}
    (hgenuine : ∀ d ∈ batch, w.Genuine d) :
    Holds service relay (fun _ _ => True)
      ((consumerRuntime settings eventTypes consumer).handleAll batch) w := by
  induction batch generalizing w with
  | nil => exact Keeps.pure trivial
  | cons delivered rest ih =>
      have hrest : ∀ d ∈ rest, w.Genuine d :=
        fun d hd => hgenuine d (List.mem_cons_of_mem delivered hd)
      have hhandle : Holds service relay (fun _ _ => True)
          ((consumerRuntime settings eventTypes consumer).handle delivered) w :=
        holds_handle settings eventTypes consumer (hgenuine delivered List.mem_cons_self)
      have hframed := hhandle.frame (F := fun w' => ∀ d ∈ rest, w'.Genuine d)
        (fun _ _ hw h d hd => (h d hd).later hw) hrest
      apply hframed.bind
      rintro _ w' ⟨_, hrest⟩
      apply (ih hrest).bind
      exact fun _ _ _ => Keeps.pure trivial

theorem holds_runOnce (settings : ConsumerSettings) (eventTypes : List EventType)
    (consumer : String) (w : Pipeline δ) :
    Holds service relay (fun _ _ => True)
      (consumerRuntime settings eventTypes consumer).runOnce w := by
  unfold ConsumerRuntime.runOnce
  apply Keeps.bind (P := fun batch w' => ∀ d ∈ batch, w'.Genuine d)
  · unfold ConsumerRuntime.collect
    apply Keeps.bind (P := fun events w' => ∀ d ∈ events.1, w'.Genuine d)
    · apply (holds_claimStreams _ _ _ _ w).bind
      exact fun events w' hevents => Keeps.pure hevents
    intro events w' hstale
    have hread : Holds service relay (fun events w' => ∀ d ∈ events, w'.Genuine d)
        (RedisStreamsBus.readNew redisClient eventTypes consumer settings.batch) w' :=
      holds_readNew eventTypes consumer settings.batch
    have hframed := hread.frame (F := fun w' => ∀ d ∈ events.1, w'.Genuine d)
      (fun _ _ hw h d hd => (h d hd).later hw) hstale
    apply hframed.bind
    rintro fresh w' ⟨hfresh, hstale⟩
    apply Keeps.pure
    intro d hd
    exact (List.mem_append.mp hd).elim (hstale d) (hfresh d)
  · intro batch w' hbatch
    exact holds_handleAll settings eventTypes consumer hbatch

/-! ### The relay -/

/-- The rows whose attempt raised nothing were sent. -/
theorem holds_publishRows (maxLen : Nat) {rows : List OutboxRow} {w : Pipeline δ}
    (hrows : ∀ row ∈ rows, row.envelope ∈ w.outbox.envelopes) :
    Holds service relay
      (fun attempts w' => ∀ id, attempts.lookup id = some none →
        ∃ envelope ∈ w'.outbox.envelopes, envelope.eventId = id ∧ w'.Sent service envelope)
      (publishRows maxLen rows) w := by
  induction rows generalizing w with
  | nil =>
      apply Keeps.pure
      intro id h
      cases h
  | cons row rest ih =>
      have hknown : ∀ w w' : Pipeline δ, Steady service w w' →
          (∀ row' ∈ row :: rest, row'.envelope ∈ w.outbox.envelopes) →
          ∀ row' ∈ row :: rest, row'.envelope ∈ w'.outbox.envelopes :=
        fun _ _ hw h row' hrow' => List.IsPrefix.subset hw.outbox (h row' hrow')
      have hattempt : Holds service relay
          (fun publishError w' => publishError = none → w'.Sent service row.envelope)
          (Program.tryCatch
            (do
              RedisStreamsBus.publish redisClient maxLen row.envelope
              return none)
            fun error => .ofExcept (publishFailed error)) w := by
        apply Keeps.tryCatch hknown hrows
        · apply (holds_publish row.envelope maxLen).bind
          exact fun _ _ hsent => Keeps.pure fun _ => hsent
        · intro e w' _
          unfold publishFailed
          split
          · exact Keeps.pure fun h => by cases h
          · trivial
      apply (hattempt.frame hknown hrows).bind
      rintro publishError w' ⟨hsent, hrows⟩
      have hrest := (ih fun row' hrow' => hrows row' (List.mem_cons_of_mem row hrow')).frame
        (F := fun w' => row.envelope ∈ w'.outbox.envelopes ∧
          (publishError = none → w'.Sent service row.envelope))
        (fun _ _ hw h => ⟨List.IsPrefix.subset hw.outbox h.1, fun hnone =>
          hw.sent _ (h.2 hnone)⟩)
        ⟨hrows row List.mem_cons_self, hsent⟩
      apply hrest.bind
      rintro attempts w' ⟨hattempts, hmem, hsent⟩
      apply Keeps.pure
      intro id hid
      rw [List.lookup_cons] at hid
      split at hid
      next hsame =>
        have hid' : id = row.eventId := by simpa using hsame
        cases hid
        exact ⟨row.envelope, hmem, hid'.symm, hsent rfl⟩
      next => exact hattempts id hid

theorem holds_relayRunOnce (settings : RelaySettings) (maxLen replica : Nat)
    (w : Pipeline δ) :
    Holds service relay (fun _ _ => True) (relayRunOnce settings maxLen replica) w := by
  apply (holds_claimRows replica settings.batchSize).bind
  intro rows w' hrows
  split
  · exact Keeps.pure trivial
  · apply (holds_publishRows maxLen hrows).bind
    intro attempts w' hattempts
    apply (holds_markRows replica hattempts).bind
    exact fun _ _ _ => Keeps.pure trivial

end Pipeline

end CryptoWallet
