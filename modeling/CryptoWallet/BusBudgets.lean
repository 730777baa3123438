import CryptoWallet.ConsumerBudget
import CryptoWallet.Pipeline

/-!
# The retry budgets of the two buses

Over Redis a claimed message carries the count which was reported before the claim, so
its second delivery is numbered one again.  The bus of the unit tests counts the
delivery it is making.  A limit of one is reached with the first delivery on both; a
larger limit is reached one delivery later over Redis.
-/

namespace CryptoWallet

open Program

theorem forall₂_of_mapM_ok {ε α β : Type} {f : α → Except ε β} {xs : List α} {ys : List β}
    (h : xs.mapM f = .ok ys) : List.Forall₂ (fun x y => f x = .ok y) xs ys := by
  induction xs generalizing ys with
  | nil =>
      cases h
      exact .nil
  | cons x rest ih =>
      rw [List.mapM_cons] at h
      obtain ⟨first, hfirst, h⟩ := bind_eq_ok.mp h
      obtain ⟨others, hothers, h⟩ := bind_eq_ok.mp h
      cases h
      exact .cons hfirst (ih hothers)

/-! ## Deliveries of the messages of one stream -/

section Deliveries

variable {β : Type}

/-- One delivery for each message, with the numbers the bus gives them. -/
def Delivers (stream : String) (number : Nat → Nat) (messages : List (Nat × β))
    (events : List DeliveredEvent) : Prop :=
  List.Forall₂ (fun message d => d.stream = stream ∧ d.messageId = message.1 ∧
    d.deliveryCount = number message.1) messages events

variable {stream : String} {number : Nat → Nat} {messages : List (Nat × β)}
  {events : List DeliveredEvent}

theorem Delivers.stream_of_mem (h : Delivers stream number messages events)
    {d : DeliveredEvent} (hd : d ∈ events) : d.stream = stream := by
  induction h with
  | nil => cases hd
  | cons hfirst _ ih =>
      rcases List.mem_cons.mp hd with hsame | hlater
      · rw [hsame]
        exact hfirst.1
      · exact ih hlater

theorem Delivers.other (h : Delivers stream number messages events) {stream' : String}
    (hother : stream ≠ stream') (id : Nat) : events.filter (·.isOf stream' id) = [] := by
  apply List.filter_eq_nil_iff.mpr
  intro d hd hof
  exact hother ((h.stream_of_mem hd).symm.trans (DeliveredEvent.isOf_iff.mp hof).1)

theorem Delivers.same (h : Delivers stream number messages events) (id : Nat) :
    List.Forall₂ (fun _ d => d.deliveryCount = number id) (StreamGroup.named id messages)
      (events.filter (·.isOf stream id)) := by
  induction h with
  | nil => exact .nil
  | @cons message d rest others hfirst _ ih =>
      by_cases hid : message.1 = id
      · have hof : d.isOf stream id = true :=
          DeliveredEvent.isOf_iff.mpr ⟨hfirst.1, hfirst.2.1.trans hid⟩
        rw [StreamGroup.named, List.filter_cons_of_pos (by simpa using hid),
          List.filter_cons_of_pos hof]
        exact .cons (hid ▸ hfirst.2.2) ih
      · have hof : ¬ d.isOf stream id = true :=
          fun hof => hid (hfirst.2.1.symm.trans (DeliveredEvent.isOf_iff.mp hof).2)
        rw [StreamGroup.named, List.filter_cons_of_neg (by simpa using hid),
          List.filter_cons_of_neg hof]
        exact ih

theorem Delivers.none (h : Delivers stream number messages events) {id : Nat}
    (hnamed : StreamGroup.named id messages = []) :
    events.filter (·.isOf stream id) = [] := by
  have hsame := h.same id
  rw [hnamed] at hsame
  exact List.forall₂_nil_left_iff.mp hsame

theorem Delivers.one (h : Delivers stream number messages events) {id : Nat} {body : β}
    (hnamed : StreamGroup.named id messages = [(id, body)]) :
    ∃ d, events.filter (·.isOf stream id) = [d] ∧ d.deliveryCount = number id := by
  have hsame := h.same id
  rw [hnamed] at hsame
  obtain ⟨d, rest, hnumber, hrest, hevents⟩ := List.forall₂_cons_left_iff.mp hsame
  rw [List.forall₂_nil_left_iff] at hrest
  rw [hrest] at hevents
  exact ⟨d, hevents, hnumber⟩

variable {policy : RetryPolicy} {t : Tally}

/-- Claiming hands out what is pending. -/
def ClaimsOut (policy : RetryPolicy) (t : Tally) (deliveries : List DeliveredEvent)
    (t' : Tally) : Prop :=
  HandsOut policy t deliveries t' ∧
    ((∀ k, t.stage ≠ .pending k) → deliveries = [] ∧ t' = t)

/-- Reading hands out what is unread. -/
def ReadsOut (policy : RetryPolicy) (t : Tally) (deliveries : List DeliveredEvent)
    (t' : Tally) : Prop :=
  HandsOut policy t deliveries t' ∧ (t.stage ≠ .unread → deliveries = [] ∧ t' = t)

theorem ClaimsOut.nothing : ClaimsOut policy t [] t := ⟨.nothing, fun _ => ⟨rfl, rfl⟩⟩

theorem ReadsOut.nothing : ReadsOut policy t [] t := ⟨.nothing, fun _ => ⟨rfl, rfl⟩⟩

/-- A poll claims first and reads afterwards. -/
theorem ClaimsOut.collected {t₁ t₂ : Tally} {stale fresh : List DeliveredEvent}
    (h : ClaimsOut policy t stale t₁) (h' : ReadsOut policy t₁ fresh t₂) :
    HandsOut policy t (stale ++ fresh) t₂ := by
  by_cases hstage : ∀ k, t.stage ≠ .pending k
  · obtain ⟨hstale, hsame⟩ := h.2 hstage
    rw [hsame] at h'
    rw [hstale, List.nil_append]
    exact h'.1
  · have hpending : ∃ k, t.stage = .pending k := by
      simpa using hstage
    obtain ⟨k, hk⟩ := hpending
    have hread : t₁.stage ≠ .unread := by
      cases h.1 with
      | nothing => simp [hk]
      | lost => simp [Tally.atStage]
      | out stage number => simp [Tally.atStage]
    obtain ⟨hfresh, hsame⟩ := h'.2 hread
    rw [hfresh, hsame, List.append_nil]
    exact h.1

theorem atStage_self {stage : Stage} (h : t.stage = stage) : t.atStage stage = t := by
  rw [← h]
  rfl

/-- Acknowledging one entry, for what it does to the tally of another or the same. -/
theorem acked_of_ack {group : StreamGroup β} {id : Nat} (hstage : t.stage = group.stage id)
    (other : Nat) :
    t.atStage ((group.ack other).stage id) = if other = id then t.acked else t := by
  rw [group.stage_ack id other, ← hstage]
  split
  · unfold Tally.acked
    cases hcase : t.stage with
    | unread => exact atStage_self hcase
    | pending k => rfl
    | gone => exact atStage_self hcase
  · exact atStage_self rfl

theorem Delivers.reads {group : StreamGroup β} {consumer : String} {now count id : Nat}
    (h : Delivers stream number (group.read consumer now count).2 events)
    (hstage : t.stage = group.stage id) (hnumber : number id = policy.reported 1) :
    ReadsOut policy t (events.filter (·.isOf stream id))
      (t.atStage ((group.read consumer now count).1.stage id)) := by
  rcases group.stage_read id consumer now count with
    ⟨hnone, hsame | ⟨hunread, hgone⟩⟩ | ⟨body, hunread, hone, hpending⟩
  · rw [h.none hnone, hsame, ← hstage, atStage_self rfl]
    exact .nothing
  · rw [h.none hnone, hgone]
    refine ⟨.lost, ?_⟩
    intro hread
    exact absurd (hstage.trans hunread) hread
  · obtain ⟨d, hd, hcount⟩ := h.one hone
    rw [hd, hpending]
    have hdeliveries : t.stage.deliveries = some 0 := by
      rw [hstage, hunread]
      rfl
    refine ⟨.out hdeliveries (hcount.trans hnumber), ?_⟩
    intro hread
    exact absurd (hstage.trans hunread) hread

theorem Delivers.claims {group : StreamGroup β} {consumer : String} {now minIdle id : Nat}
    {ids : List Nat} (h : Delivers stream number (group.claim consumer now minIdle ids).2 events)
    (hnodup : ids.Nodup) (hstage : t.stage = group.stage id)
    (hnumber : ∀ k, group.stage id = .pending k → id ∈ ids →
      number id = policy.reported (k + 1)) :
    ClaimsOut policy t (events.filter (·.isOf stream id))
      (t.atStage ((group.claim consumer now minIdle ids).1.stage id)) := by
  rcases group.stage_claim id consumer now minIdle hnodup with
    ⟨hnone, hsame | ⟨⟨k, hpending⟩, hgone⟩⟩ | ⟨body, k, hpending, hmem, hone, hnext⟩
  · rw [h.none hnone, hsame, ← hstage, atStage_self rfl]
    exact .nothing
  · rw [h.none hnone, hgone]
    refine ⟨.lost, ?_⟩
    intro hclaim
    exact absurd (hstage.trans hpending) (hclaim k)
  · obtain ⟨d, hd, hcount⟩ := h.one hone
    rw [hd, hnext]
    have hdeliveries : t.stage.deliveries = some k := by
      rw [hstage, hpending]
      rfl
    refine ⟨.out hdeliveries (hcount.trans (hnumber k hpending hmem)), ?_⟩
    intro hclaim
    exact absurd (hstage.trans hpending) (hclaim k)

/-- Streams are asked one after the other; only the one of the message matters. -/
def Across (Out : Tally → List DeliveredEvent → Tally → Prop) (stream : String)
    (streams : List String) (t : Tally) (deliveries : List DeliveredEvent) (t' : Tally) :
    Prop :=
  Out t deliveries t' ∧ (stream ∉ streams → deliveries = [] ∧ t' = t)

theorem Across.cons {Out : Tally → List DeliveredEvent → Tally → Prop} {first : String}
    {streams : List String} (hnodup : first ∉ streams) {t t₁ t₂ : Tally}
    {deliveries others : List DeliveredEvent}
    (hfirst : if first = stream then Out t deliveries t₁ else deliveries = [] ∧ t₁ = t)
    (h : Across Out stream streams t₁ others t₂) :
    Across Out stream (first :: streams) t (deliveries ++ others) t₂ := by
  by_cases hstream : first = stream
  · rw [if_pos hstream] at hfirst
    obtain ⟨hothers, hsame⟩ := h.2 (hstream ▸ hnodup)
    rw [hothers, hsame, List.append_nil]
    refine ⟨hfirst, ?_⟩
    intro hmem
    exact absurd (by simp [hstream]) hmem
  · rw [if_neg hstream] at hfirst
    rw [hfirst.2] at h
    rw [hfirst.1, List.nil_append]
    exact ⟨h.1, fun hmem => h.2 fun hlater => hmem (List.mem_cons_of_mem first hlater)⟩

end Deliveries

/-! ## Redis Streams -/

/-- The handler is called for the message. -/
def Happening.attempts (stream : String) (id : Nat) : Happening → Bool
  | .dispatched d _ => d.isOf stream id
  | _ => false

/-- The handler returned for the message. -/
def Happening.succeeds (stream : String) (id : Nat) : Happening → Bool
  | .dispatched d (.ok _) => d.isOf stream id
  | _ => false

namespace Pipeline

variable {δ : Type}

def tally (stream : String) (id : Nat) (w : Pipeline δ) : Tally where
  stage := (w.streams stream).stage id
  attempts := w.journal.countP (Happening.attempts stream id)
  givenUp := w.dlq.countP (·.delivered.isOf stream id)
  succeeded := w.journal.any (Happening.succeeds stream id)

section Commands

variable {service : Service δ} {relay : RelaySettings} {stream : String} {id : Nat}
  {w : Pipeline δ}

/-- The time since the last command does not matter. -/
theorem leads_send (command : PipelineCommand)
    {post : Except BusError command.Answer → Pipeline δ → Prop}
    (h : ∀ turn clock, post (carryOut service relay turn command { w with clock }).1
      (carryOut service relay turn command { w with clock }).2) :
    (send command).Leads (machine service relay) post w :=
  Ensures.perform trivial fun turn => h turn (w.clock + turn.elapsed)

theorem stage_setStream (w : Pipeline δ) (stream' : String) (group : StreamGroup Wire) :
    ((w.setStream stream' group).streams stream).stage id =
      if stream' = stream then group.stage id else (w.streams stream).stage id := by
  have hupdate : (w.setStream stream' group).streams stream =
      if stream = stream' then group else w.streams stream :=
    Function.update_apply w.streams stream' group stream
  rw [hupdate]
  by_cases hsame : stream = stream'
  · rw [if_pos hsame, if_pos hsame.symm]
  · rw [if_neg hsame, if_neg fun h => hsame h.symm]

theorem tally_setStream (w : Pipeline δ) (stream' : String) (group : StreamGroup Wire) :
    (w.setStream stream' group).tally stream id =
      if stream' = stream then (w.tally stream id).atStage (group.stage id)
      else w.tally stream id := by
  have hstage : ((w.setStream stream' group).streams stream).stage id = _ :=
    stage_setStream w stream' group
  have htally : (w.setStream stream' group).tally stream id =
      (w.tally stream id).atStage (((w.setStream stream' group).streams stream).stage id) := rfl
  rw [htally, hstage]
  split
  case isTrue hsame => rfl
  case isFalse hother => exact atStage_self rfl

theorem tally_handedOut (w : Pipeline δ) (stream' : String) (messages : List (Nat × Wire)) :
    (w.noted (messages.map fun message => .handedOut stream' message.1 message.2)).tally
      stream id = w.tally stream id := by
  have hcount : (messages.map fun message => Happening.handedOut stream' message.1
      message.2).countP (Happening.attempts stream id) = 0 := by
    rw [List.countP_eq_zero]
    intro happening hmem
    obtain ⟨message, _, hsame⟩ := List.mem_map.mp hmem
    simp [← hsame, Happening.attempts]
  have hany : (messages.map fun message => Happening.handedOut stream' message.1
      message.2).any (Happening.succeeds stream id) = false := by
    rw [List.any_eq_false]
    intro happening hmem
    obtain ⟨message, _, hsame⟩ := List.mem_map.mp hmem
    simp [← hsame, Happening.succeeds]
  simp only [tally, noted, List.countP_append, List.any_append, hcount, hany, Nat.add_zero,
    Bool.or_false]

theorem tally_dispatched (w : Pipeline δ) (d : DeliveredEvent)
    (result : Except BusError Unit) (db : δ) :
    ({ w.noted [.dispatched d result] with db } : Pipeline δ).tally stream id =
      if d.isOf stream id then (w.tally stream id).attempted result.isOk
      else w.tally stream id := by
  cases hof : d.isOf stream id with
  | false =>
      cases result <;>
        simp [tally, noted, Happening.attempts, Happening.succeeds, hof]
  | true =>
      cases result <;>
        simp [tally, noted, Happening.attempts, Happening.succeeds, hof, Tally.attempted,
          Except.isOk, Except.toBool]

theorem dispatch_leads (d : DeliveredEvent) (w : Pipeline δ) :
    (send (.dispatch d)).Leads (machine service relay)
      (fun result w' => w'.tally stream id =
        if d.isOf stream id then (w.tally stream id).attempted result.isOk
        else w.tally stream id) w := by
  apply leads_send _
  intro turn clock
  simp only [carryOut, dispatched]
  split
  · exact tally_dispatched { w with clock } d _ w.db
  · exact tally_dispatched { w with clock } d _ _

theorem ack_leads (d : DeliveredEvent) (w : Pipeline δ) :
    (send (.xack d.stream d.messageId)).Leads (machine service relay)
      (fun _ w' => w'.tally stream id =
        if d.isOf stream id then (w.tally stream id).acked else w.tally stream id) w := by
  apply leads_send _
  intro turn clock
  simp only [carryOut]
  rw [tally_setStream]
  by_cases hstream : d.stream = stream
  · rw [if_pos hstream, hstream]
    have hacked := @acked_of_ack _ (w.tally stream id) (w.streams stream) id rfl d.messageId
    refine hacked.trans ?_
    simp only [DeliveredEvent.isOf_iff, hstream, true_and]
  · rw [if_neg hstream, if_neg fun hof => hstream (DeliveredEvent.isOf_iff.mp hof).1]
    rfl

theorem deadLetter_leads (item : DeadLetter) (w : Pipeline δ) :
    (send (.xaddDeadLetter item)).Leads (machine service relay)
      (fun _ w' => w'.tally stream id =
        if item.delivered.isOf stream id then (w.tally stream id).dropped
        else w.tally stream id) w := by
  apply leads_send _
  intro turn clock
  cases hof : item.delivered.isOf stream id with
  | false => simp [carryOut, tally, noted, Happening.attempts, Happening.succeeds, hof]
  | true =>
      simp [carryOut, tally, noted, Happening.attempts, Happening.succeeds, hof,
        Tally.dropped]

theorem record_leads (item : DeadLetter) (w : Pipeline δ) :
    (send (.recordDeadLetter item)).Leads (machine service relay)
      (fun _ w' => w'.tally stream id = w.tally stream id) w := by
  apply leads_send _
  intro turn clock
  simp only [carryOut, recordedDeadLetter]
  split <;> rfl

end Commands

/-! ### A batch from Redis -/

theorem deliveredEvent_ok {stream : String} {id count : Nat} {fields : Wire}
    {d : DeliveredEvent} (h : RedisStreamsBus.deliveredEvent stream id fields count = .ok d) :
    d.stream = stream ∧ d.messageId = id ∧ d.deliveryCount = count := by
  cases fields with
  | body envelope =>
      cases h
      exact ⟨rfl, rfl, rfl⟩
  | other text => cases h

theorem delivers_of_mapM {stream : String} {number : Nat → Nat}
    {messages : List (Nat × Wire)} {events : List DeliveredEvent}
    (h : messages.mapM (fun message =>
      RedisStreamsBus.deliveredEvent stream message.1 message.2 (number message.1)) =
        .ok events) : Delivers stream number messages events :=
  (forall₂_of_mapM_ok h).imp fun _ _ hd => deliveredEvent_ok hd

section Batch

variable {service : Service δ} {relay : RelaySettings} {stream : String} {id : Nat}
  {consumer : String}

theorem retryable_leads (stream' : String) (counts : List (Nat × Nat))
    (messages : List (Nat × Wire)) (w : Pipeline δ) :
    (RedisStreamsBus.retryable redisClient stream' counts
      (messages.map fun message => (message.1, some message.2))).Leads (machine service relay)
      (fun result w' => ∀ events, result = .ok events →
        w' = w ∧ Delivers stream' (fun id => (counts.lookup id).getD 1) messages events) w := by
  induction messages with
  | nil =>
      intro events hevents
      cases hevents
      exact ⟨rfl, .nil⟩
  | cons message rest ih =>
      simp only [List.map_cons, RedisStreamsBus.retryable]
      apply Ensures.bind
      apply Ensures.ofExcept
      cases hdecode : RedisStreamsBus.deliveredEvent stream' message.1 message.2
          ((counts.lookup message.1).getD 1) with
      | error e => exact fun _ hok => by cases hok
      | ok d =>
          apply Ensures.bind
          apply ih.mono (fun _ h => h)
          intro result w' hrest
          cases result with
          | error e => exact fun _ hok => by cases hok
          | ok others =>
              intro events hevents
              cases hevents
              obtain ⟨hsame, hothers⟩ := hrest others rfl
              exact ⟨hsame, .cons (deliveredEvent_ok hdecode) hothers⟩

/-- The tally after one stream is claimed from. -/
def ClaimedFrom (policy : RetryPolicy) (stream : String) (id : Nat) (w : Pipeline δ)
    (stream' : String) (events : List DeliveredEvent) (w' : Pipeline δ) : Prop :=
  if stream' = stream then
    ClaimsOut policy (w.tally stream id) (events.filter (·.isOf stream id))
      (w'.tally stream id)
  else events.filter (·.isOf stream id) = [] ∧ w'.tally stream id = w.tally stream id

theorem claimStream_leads {limit : Nat} (hlimit : 1 ≤ limit) (minIdle count : Nat)
    (stream' : String) {w : Pipeline δ}
    (hcounted : ∀ k, (w.tally stream id).stage = .pending k → 1 ≤ k) :
    (RedisStreamsBus.claimStream redisClient consumer minIdle count stream').Leads
      (machine service relay)
      (fun result w' => ∀ events, result = .ok events →
        ClaimedFrom (.countingBefore limit hlimit) stream id w stream' events w') w := by
  apply Ensures.bind
  apply leads_send (.xpendingRange stream' count minIdle)
  intro turn clock
  simp only [carryOut]
  split
  · intro events hevents
    cases hevents
    unfold ClaimedFrom
    split
    · exact .nothing
    · exact ⟨rfl, rfl⟩
  · apply Ensures.bind
    apply leads_send (.xclaim stream' consumer minIdle _)
    intro turn' clock'
    simp only [carryOut, claimGroup]
    let pending := (w.streams stream').idlePending clock minIdle count
    let claimed := (w.streams stream').claim consumer clock' minIdle (pending.map Prod.fst)
    apply (retryable_leads stream' pending claimed.2 _).mono (fun _ h => h)
    intro result w' hevents events hok
    obtain ⟨hsame, hdelivers⟩ := hevents events hok
    have htally : w'.tally stream id =
        if stream' = stream then (w.tally stream id).atStage (claimed.1.stage id)
        else w.tally stream id := by
      rw [hsame, tally_handedOut, tally_setStream]
      rfl
    unfold ClaimedFrom
    rw [htally]
    split
    case isTrue hstream =>
      have hnodup : (pending.map Prod.fst).Nodup :=
        (w.streams stream').idlePending_nodup clock minIdle count
      rw [← hstream]
      apply hdelivers.claims hnodup
      · rw [hstream]
        rfl
      · intro k hstage hmem
        have hk : 1 ≤ k := hcounted k (by rw [← hstage, hstream]; rfl)
        have hlookup : pending.lookup id = some k :=
          (w.streams stream').idlePending_lookup hstage hmem
        rw [hlookup, Option.getD_some]
        exact (if_neg (by omega)).symm
    case isFalse hother => exact ⟨hdelivers.other hother id, rfl⟩

/-- A stream is claimed from at most once. -/
theorem claimStreams_leads {limit : Nat} (hlimit : 1 ≤ limit) (minIdle count : Nat)
    {eventTypes : List EventType} (hnodup : (eventTypes.map EventType.streamFor).Nodup)
    {w : Pipeline δ} (hcounted : ∀ k, (w.tally stream id).stage = .pending k → 1 ≤ k) :
    (RedisStreamsBus.claimStreams redisClient consumer minIdle count eventTypes).Leads
      (machine service relay)
      (fun result w' => ∀ events, result = .ok events →
        Across (ClaimsOut (.countingBefore limit hlimit)) stream
          (eventTypes.map EventType.streamFor) (w.tally stream id)
          (events.filter (·.isOf stream id)) (w'.tally stream id)) w := by
  induction eventTypes generalizing w with
  | nil =>
      intro events hevents
      cases hevents
      exact ⟨.nothing, fun _ => ⟨rfl, rfl⟩⟩
  | cons eventType rest ih =>
      rw [List.map_cons, List.nodup_cons] at hnodup
      apply Ensures.bind
      apply (claimStream_leads hlimit minIdle count eventType.streamFor hcounted).mono
        (fun _ h => h)
      intro result w₁ hfirst
      cases result with
      | error e => exact fun _ hok => by cases hok
      | ok events =>
      have hfirst := hfirst events rfl
      have hcounted₁ : ∀ k, (w₁.tally stream id).stage = .pending k → 1 ≤ k := by
        unfold ClaimedFrom at hfirst
        split at hfirst
        · exact hfirst.1.counted hcounted
        · rw [hfirst.2]
          exact hcounted
      apply Ensures.bind
      apply (ih hnodup.2 hcounted₁).mono (fun _ h => h)
      intro result w₂ hrest
      cases result with
      | error e => exact fun _ hok => by cases hok
      | ok others =>
          intro batch hbatch
          cases hbatch
          rw [List.filter_append]
          exact (hrest others rfl).cons hnodup.1 hfirst

/-- The messages of the target's stream in an answer of `XREADGROUP`. -/
def answersOf (stream : String) (answers : List (String × List (Nat × Wire))) :
    List (Nat × Wire) :=
  answers.flatMap fun answer => if answer.1 = stream then answer.2 else []

theorem readGroups_tally (consumer stream : String) (id now count : Nat)
    {streams : List String} (hnodup : streams.Nodup)
    (w : Pipeline δ) :
    let result := readGroups consumer now count streams w
    if stream ∈ streams then
      answersOf stream result.1 = ((w.streams stream).read consumer now count).2 ∧
        result.2.tally stream id = (w.tally stream id).atStage
          (((w.streams stream).read consumer now count).1.stage id)
    else answersOf stream result.1 = [] ∧
      result.2.tally stream id = w.tally stream id ∧
      result.2.streams stream = w.streams stream := by
  induction streams generalizing w with
  | nil => exact ⟨rfl, rfl, rfl⟩
  | cons first rest ih =>
      rw [List.nodup_cons] at hnodup
      let group := ((w.streams first).read consumer now count).1
      let messages := ((w.streams first).read consumer now count).2
      let w₁ := (w.setStream first group).noted
        (messages.map fun message => .handedOut first message.1 message.2)
      have hrest := ih hnodup.2 w₁
      have htally : w₁.tally stream id =
          if first = stream then (w.tally stream id).atStage (group.stage id)
          else w.tally stream id :=
        (tally_handedOut _ first messages).trans (tally_setStream w first group)
      have hgroup : w₁.streams stream = if stream = first then group else w.streams stream :=
        Function.update_apply w.streams first group stream
      have hanswers : answersOf stream (readGroups consumer now count (first :: rest) w).1 =
          (if first = stream then messages else []) ++
            answersOf stream (readGroups consumer now count rest w₁).1 := rfl
      have hworld : (readGroups consumer now count (first :: rest) w).2 =
          (readGroups consumer now count rest w₁).2 := rfl
      simp only [hanswers, hworld]
      by_cases hfirst : first = stream
      · have hlater : stream ∉ rest := hfirst ▸ hnodup.1
        rw [if_pos hfirst] at htally ⊢
        simp only [if_neg hlater] at hrest
        rw [if_pos (by simp [hfirst]), hrest.1, hrest.2.1, htally, List.append_nil, ← hfirst]
        exact ⟨rfl, rfl⟩
      · rw [if_neg hfirst] at htally ⊢
        rw [if_neg fun h => hfirst h.symm] at hgroup
        have hmem : stream ∈ first :: rest ↔ stream ∈ rest := by
          rw [List.mem_cons]
          exact or_iff_right fun h => hfirst h.symm
        simp only [hmem, List.nil_append, ← htally]
        simp only [hgroup] at hrest
        exact hrest

theorem answersOf_nonempty (answers : List (String × List (Nat × Wire))) :
    answersOf stream (answers.filter fun answer => answer.2 ≠ []) = answersOf stream answers := by
  induction answers with
  | nil => rfl
  | cons answer rest ih =>
      have hcons : ∀ others, answersOf stream (answer :: others) =
          (if answer.1 = stream then answer.2 else []) ++ answersOf stream others :=
        fun _ => rfl
      by_cases hempty : answer.2 = []
      · rw [List.filter_cons_of_neg (by simpa using hempty), ih, hcons, hempty, ite_self,
          List.nil_append]
      · rw [List.filter_cons_of_pos (by simpa using hempty), hcons, hcons, ih]

/-- The deliveries of one stream, of all which one read answered. -/
theorem delivers_answers (stream : String) {number : Nat → Nat}
    {answers : List (String × List (Nat × Wire))}
    {events : List (List DeliveredEvent)}
    (h : List.Forall₂ (fun answer group => Delivers answer.1 number answer.2 group)
      answers events) :
    Delivers stream number (answersOf stream answers)
      (events.flatten.filter (·.stream = stream)) := by
  induction h with
  | nil => exact .nil
  | @cons answer group rest others hfirst _ ih =>
      have hcons : answersOf stream (answer :: rest) =
          (if answer.1 = stream then answer.2 else []) ++ answersOf stream rest := rfl
      rw [hcons, List.flatten_cons, List.filter_append]
      have hgroup : ∀ d ∈ group, d.stream = answer.1 := by
        intro d hd
        exact hfirst.stream_of_mem hd
      by_cases hstream : answer.1 = stream
      · have hall : group.filter (·.stream = stream) = group := by
          apply List.filter_eq_self.mpr
          intro d hd
          simpa using (hgroup d hd).trans hstream
        rw [if_pos hstream, hall]
        rw [hstream] at hfirst
        exact List.rel_append hfirst ih
      · have hnone : group.filter (·.stream = stream) = [] := by
          apply List.filter_eq_nil_iff.mpr
          intro d hd hof
          exact hstream ((hgroup d hd).symm.trans (by simpa using hof))
        rw [if_neg hstream, hnone]
        exact ih

theorem readNew_leads {limit : Nat} (hlimit : 1 ≤ limit) (count : Nat)
    {eventTypes : List EventType} (hnodup : (eventTypes.map EventType.streamFor).Nodup)
    (w : Pipeline δ) :
    (RedisStreamsBus.readNew redisClient eventTypes consumer count).Leads
      (machine service relay)
      (fun result w' => ∀ events, result = .ok events →
        ReadsOut (.countingBefore limit hlimit) (w.tally stream id)
          (events.filter (·.isOf stream id)) (w'.tally stream id)) w := by
  unfold RedisStreamsBus.readNew
  split
  · intro events hevents
    cases hevents
    exact .nothing
  · apply Ensures.bind
    apply leads_send (.xreadgroup consumer (eventTypes.map EventType.streamFor) count)
    intro turn clock
    simp only [carryOut]
    have hread := readGroups_tally consumer stream id clock count hnodup { w with clock }
    let result := readGroups consumer clock count (eventTypes.map EventType.streamFor)
      { w with clock }
    apply Ensures.bind
    apply Ensures.ofExcept
    cases hdecode : (result.1.filter fun answer => answer.2 ≠ []).mapM fun answer =>
        RedisStreamsBus.firstDeliveries answer.1 answer.2 with
    | error e => exact fun _ hok => by cases hok
    | ok groups =>
        intro events hevents
        cases hevents
        have hgroups : List.Forall₂ (fun answer group =>
            Delivers answer.1 (fun _ => 1) answer.2 group)
            (result.1.filter fun answer => answer.2 ≠ []) groups :=
          (forall₂_of_mapM_ok hdecode).imp fun _ _ hgroup => delivers_of_mapM hgroup
        have hdelivers := delivers_answers stream hgroups
        rw [answersOf_nonempty] at hdelivers
        have hfilter : (groups.flatten.filter (·.stream = stream)).filter
            (·.isOf stream id) = groups.flatten.filter (·.isOf stream id) := by
          rw [List.filter_filter]
          apply List.filter_congr
          intro d _
          cases hof : d.isOf stream id with
          | false => rfl
          | true => simpa using (DeliveredEvent.isOf_iff.mp hof).1
        rw [← hfilter]
        by_cases hmem : stream ∈ eventTypes.map EventType.streamFor
        · simp only [if_pos hmem] at hread
          rw [hread.1] at hdelivers
          rw [hread.2]
          exact hdelivers.reads rfl rfl
        · simp only [if_neg hmem] at hread
          rw [hread.1] at hdelivers
          rw [hread.2.1, hdelivers.none rfl]
          exact .nothing

/-- The consumer of a service over Redis, watched at one message. -/
def watched (service : Service δ) (relay : RelaySettings) (settings : ConsumerSettings)
    {limit : Nat} (hlimit : 1 ≤ limit) {eventTypes : List EventType}
    (hnodup : (eventTypes.map EventType.streamFor).Nodup) (consumer stream : String)
    (id : Nat) :
    Watched (machine service relay) (consumerRuntime settings eventTypes consumer)
      (.countingBefore limit hlimit) stream id where
  tally := tally stream id
  dispatch := dispatch_leads
  ack := ack_leads
  deadLetter := deadLetter_leads
  record := by
    intro record hrecord item w
    cases hrecord
    exact record_leads item w
  collect := by
    intro w hcounted
    apply Ensures.bind
    apply Ensures.bind
    apply (claimStreams_leads hlimit settings.claimIdleMs settings.batch hnodup hcounted).mono
      (fun _ h => h)
    intro result w₁ hclaims
    cases result with
    | error e => exact fun _ hok => by cases hok
    | ok stale =>
        apply Ensures.bind
        apply (readNew_leads hlimit settings.batch hnodup w₁).mono (fun _ h => h)
        intro result w₂ hreads
        cases result with
        | error e => exact fun _ hok => by cases hok
        | ok fresh =>
            intro batch hbatch
            cases hbatch
            rw [List.filter_append]
            exact (hclaims stale rfl).1.collected (hreads fresh rfl)

end Batch

end Pipeline

end CryptoWallet
