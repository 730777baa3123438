import CryptoWallet.BusEquivalence

/-!
# Poison messages over Redis

A poll decodes all messages it is handed before it handles the first, and it records a
dead letter before it acknowledges.  A body which is no envelope, and an envelope which
the table of dead letters does not take, end the poll for everybody.

Where neither happens, every message handed out reaches the handler or the dead letters
in the same poll, and every message is handed out a bounded number of times.
-/

namespace CryptoWallet

open Program

/-! ## One message and one poll -/

namespace Watched

variable {γ : Type} {ρ : γ → Type} {ω σ : Type} {m : Machine ρ ω BusError σ}
  {runtime : ConsumerRuntime ρ} {policy : RetryPolicy} {stream : String} {id : Nat}
  (w : Watched m runtime policy stream id)

/-- What handling one delivery leaves, of a message with this tally. -/
structure Leaves (limit : Nat) (t : Tally) (d : DeliveredEvent) (t' : Tally) :
    Prop where
  handled : t.Handled limit d.deliveryCount t'
  succeeded : t.succeeded = true → t'.succeeded = true
  stage : t'.stage = t.stage ∨ t'.stage = .gone

theorem handle_leaves {d : DeliveredEvent} (hof : d.isOf stream id = true) {s : σ} {k : Nat}
    (hstage : (w.tally s).stage = .pending k) :
    (runtime.handle d).Leads m (w.OnReturn (Leaves runtime.maxDelivery (w.tally s) d)) s := by
  have hdropped : ∀ t : Tally, t.stage = .pending k → t.givenUp = (w.tally s).givenUp →
      ((w.tally s).succeeded = true → t.succeeded = true) →
      runtime.maxDelivery ≤ d.deliveryCount →
      Leaves runtime.maxDelivery (w.tally s) d t.dropped.acked := by
    intro t hpending hgiven hsucceeded hreached
    have hgone : t.dropped.acked.stage = .gone :=
      Tally.acked_stage (t := t.dropped) hpending
    refine ⟨Or.inr ?_, ?_, Or.inr hgone⟩
    · rw [if_neg (by omega)]
      refine ⟨hgone, ?_⟩
      have hmore : t.dropped.acked.givenUp = t.givenUp + 1 := Tally.acked_givenUp t.dropped
      omega
    · rw [Tally.acked_succeeded]
      exact hsucceeded
  have hreject : ∀ error s₁,
      Leaves runtime.maxDelivery (w.tally s) d (w.tally s₁).dropped.acked →
      (runtime.reject d error).Leads m
        (w.OnReturn (Leaves runtime.maxDelivery (w.tally s) d)) s₁ := by
    intro error s₁ hleaves
    apply w.reject_leads d error s₁
    rw [hof]
    exact hleaves
  have hsuccess : ∀ t : Tally, t.succeeded = true → t.stage = .gone →
      Leaves runtime.maxDelivery (w.tally s) d t :=
    fun t ht hgone => ⟨Or.inl ht, fun _ => ht, Or.inr hgone⟩
  unfold ConsumerRuntime.handle
  split
  case isTrue hbeyond =>
    apply hreject none s
    exact hdropped _ hstage rfl (fun h => h) (by omega)
  case isFalse =>
    apply Ensures.tryCatch
    apply Ensures.bind
    apply (w.dispatch d s).mono (fun _ h => h)
    intro result s₁ hattempted
    rw [hof, if_pos rfl] at hattempted
    cases result with
    | error e =>
        change (if runtime.maxDelivery ≤ d.deliveryCount then runtime.reject d (some e)
          else pure ()).Leads m (w.OnReturn (Leaves runtime.maxDelivery (w.tally s) d)) s₁
        have hsucceeded : (w.tally s).succeeded = true → (w.tally s₁).succeeded = true := by
          intro h
          rw [hattempted]
          simp [Tally.attempted, h]
        split
        case isTrue hreached =>
          apply hreject (some e) s₁
          apply hdropped _ ?_ ?_ hsucceeded hreached
          · rw [hattempted]
            exact hstage
          · rw [hattempted]
            rfl
        case isFalse hbelow =>
          intro _ _
          refine ⟨Or.inr ?_, hsucceeded, Or.inl (by rw [hattempted]; rfl)⟩
          rw [if_pos (by omega), hattempted]
          exact ⟨rfl, rfl⟩
    | ok _ =>
        have hdone : (w.tally s₁).succeeded = true := by
          rw [hattempted]
          simp [Tally.attempted, Except.isOk, Except.toBool]
        apply (w.ack d s₁).mono (fun _ h => h)
        intro result s₂ hack
        rw [hof, if_pos rfl] at hack
        have hdone₂ : (w.tally s₂).succeeded = true := by
          rw [hack, Tally.acked_succeeded]
          exact hdone
        have hgone : (w.tally s₂).stage = .gone := by
          rw [hack, hattempted]
          exact Tally.acked_stage (t := (w.tally s).attempted true) hstage
        cases result with
        | ok _ => exact fun _ _ => hsuccess _ hdone₂ hgone
        | error e =>
            change (if runtime.maxDelivery ≤ d.deliveryCount then runtime.reject d (some e)
              else pure ()).Leads m (w.OnReturn (Leaves runtime.maxDelivery (w.tally s) d)) s₂
            split
            · apply hreject (some e) s₂
              apply hsuccess
              · rw [Tally.acked_succeeded]
                exact hdone₂
              · unfold Tally.acked
                split
                · rfl
                · exact hgone
            · exact fun _ _ => hsuccess _ hdone₂ hgone

theorem handleAll_others {batch : List DeliveredEvent}
    (hothers : batch.filter (·.isOf stream id) = []) (s : σ) :
    (runtime.handleAll batch).Leads m (w.OnReturn (· = w.tally s)) s := by
  induction batch generalizing s with
  | nil => exact fun _ _ => rfl
  | cons d rest ih =>
      have hother : d.isOf stream id = false := by
        have hnone := List.filter_eq_nil_iff.mp hothers d List.mem_cons_self
        simpa using hnone
      rw [List.filter_cons_of_neg (by simp [hother])] at hothers
      apply Ensures.bind
      apply (w.handle_other hother s).mono (fun _ h => h)
      intro result s₁ hsame
      cases result with
      | error e => exact fun _ hok => by cases hok
      | ok _ =>
          apply Ensures.bind
          apply (ih hothers s₁).mono (fun _ h => h)
          intro result s₂ hsame₂
          cases result with
          | error e => exact fun _ hok => by cases hok
          | ok handled => exact fun _ _ => (hsame₂ handled rfl).trans (hsame () rfl)

theorem handleAll_leaves {batch : List DeliveredEvent} {d : DeliveredEvent}
    (hone : batch.filter (·.isOf stream id) = [d]) {s : σ} {k : Nat}
    (hstage : (w.tally s).stage = .pending k) :
    (runtime.handleAll batch).Leads m
      (w.OnReturn (Leaves runtime.maxDelivery (w.tally s) d)) s := by
  induction batch generalizing s with
  | nil => cases hone
  | cons first rest ih =>
      apply Ensures.bind
      cases hof : first.isOf stream id with
      | false =>
          rw [List.filter_cons_of_neg (by simp [hof])] at hone
          apply (w.handle_other hof s).mono (fun _ h => h)
          intro result s₁ hsame
          cases result with
          | error e => exact fun _ hok => by cases hok
          | ok _ =>
              have hsame := hsame () rfl
              rw [← hsame] at hstage ⊢
              apply Ensures.bind
              apply (ih hone hstage).mono (fun _ h => h)
              intro result s₂ hleaves
              cases result with
              | error e => exact fun _ hok => by cases hok
              | ok handled => exact fun _ _ => hleaves handled rfl
      | true =>
          rw [List.filter_cons_of_pos hof, List.cons_eq_cons] at hone
          rw [← hone.1]
          apply (w.handle_leaves hof hstage).mono (fun _ h => h)
          intro result s₁ hleaves
          cases result with
          | error e => exact fun _ hok => by cases hok
          | ok _ =>
              apply Ensures.bind
              apply (w.handleAll_others hone.2 s₁).mono (fun _ h => h)
              intro result s₂ hsame
              cases result with
              | error e => exact fun _ hok => by cases hok
              | ok handled =>
                  intro _ _
                  rw [hsame handled rfl]
                  exact hleaves () rfl

/-- The message was handed out so often since `start`, and what is pending was delivered. -/
def Spends (policy : RetryPolicy) (start : Tally) (handed : Nat) (t : Tally) : Prop :=
  Spent policy start handed t ∧ ∀ k, t.stage = .pending k → 1 ≤ k

/-- Handling a batch which hands the message out like this spends the deliveries. -/
theorem handleAll_spends (hmono : Monotone policy.reported)
    (hreported : ∀ k, 1 ≤ policy.reported k) (hlimit : policy.limit = max 1 runtime.maxDelivery)
    {start t : Tally} {handed : Nat} {batch : List DeliveredEvent} {s : σ}
    (h : Spends policy start handed t)
    (hhands : HandsOut policy t (batch.filter (·.isOf stream id)) (w.tally s)) :
    (runtime.handleAll batch).Leads m
      (w.OnReturn (Spends policy start
        (handed + (batch.filter (·.isOf stream id)).length))) s := by
  have hcounted := hhands.counted h.2
  generalize hdeliveries : batch.filter (·.isOf stream id) = deliveries at hhands
  generalize htally : w.tally s = t₁ at hhands hcounted
  cases hhands with
  | nothing =>
      apply (w.handleAll_others hdeliveries s).mono (fun _ h => h)
      intro result s' hsame n hn
      rw [hsame n hn, htally]
      exact h
  | lost =>
      apply (w.handleAll_others hdeliveries s).mono (fun _ h => h)
      intro result s' hsame n hn
      rw [hsame n hn, htally]
      exact ⟨h.1.lost, hcounted⟩
  | @out d k stage number =>
      have hstage : (w.tally s).stage = .pending (k + 1) := by
        rw [htally]
        rfl
      apply (w.handleAll_leaves hdeliveries hstage).mono (fun _ h => h)
      intro result s' hleaves n hn
      obtain ⟨hhandled, hsucceeded, hsame⟩ := hleaves n hn
      rw [htally] at hhandled hsucceeded hsame
      have hhandled := hhandled.positive (by rw [number]; exact hreported (k + 1))
      rw [number, ← hlimit] at hhandled
      refine ⟨h.1.handled hmono stage hsucceeded hhandled, ?_⟩
      intro k' hk'
      rcases hsame with hpending | hgone
      · exact hcounted k' (hpending ▸ hk')
      · rw [hgone] at hk'
        cases hk'

end Watched

/-! ## What a poll journals -/

/-- Redis handed the message out. -/
def Happening.handsOut (stream : String) (id : Nat) : Happening → Bool
  | .handedOut stream' id' _ => stream' = stream && id' = id
  | .dispatched _ _ | .deadLettered _ _ => false

/-- The handler was called for the message, or it went to the dead letters. -/
def Happening.reaches (stream : String) (id : Nat) : Happening → Bool
  | .handedOut _ _ _ => false
  | .dispatched d _ => d.isOf stream id
  | .deadLettered item _ => item.delivered.isOf stream id

/-- The messages which these happenings hand out are those of the batch. -/
def Hands (batch : List DeliveredEvent) (happenings : List Happening) : Prop :=
  ∀ stream id, happenings.countP (Happening.handsOut stream id) =
    (batch.filter (·.isOf stream id)).length

/-- Nothing is handed out, and the messages of the batch are handled. -/
def Covers (batch : List DeliveredEvent) (happenings : List Happening) : Prop :=
  Hands [] happenings ∧
    ∀ d ∈ batch, happenings.any (Happening.reaches d.stream d.messageId) = true

theorem Hands.nothing : Hands [] [] := fun _ _ => rfl

theorem Hands.append {batch others : List DeliveredEvent} {before after : List Happening}
    (h : Hands batch before) (h' : Hands others after) :
    Hands (batch ++ others) (before ++ after) := by
  intro stream id
  rw [List.countP_append, List.filter_append, List.length_append, h stream id, h' stream id]

theorem Covers.append {batch others : List DeliveredEvent} {before after : List Happening}
    (h : Covers batch before) (h' : Covers others after) :
    Covers (batch ++ others) (before ++ after) := by
  refine ⟨h.1.append h'.1, ?_⟩
  intro d hd
  rw [List.any_append, Bool.or_eq_true]
  exact (List.mem_append.mp hd).imp (h.2 d) (h'.2 d)

theorem Delivers.hands {stream : String} {number : Nat → Nat} {messages : List (Nat × Wire)}
    {events : List DeliveredEvent} (h : Delivers stream number messages events) :
    Hands events (messages.map fun message => .handedOut stream message.1 message.2) := by
  induction h with
  | nil => exact fun _ _ => rfl
  | @cons message d rest others hfirst _ ih =>
      have hone : Hands [d] [.handedOut stream message.1 message.2] := by
        intro stream' id
        have hsame : d.isOf stream' id =
            (decide (stream = stream') && decide (message.1 = id)) := by
          rw [DeliveredEvent.isOf, hfirst.1, hfirst.2.1]
        cases hof : d.isOf stream' id with
        | false =>
            rw [hof] at hsame
            simp [Happening.handsOut, hof, ← hsame]
        | true =>
            rw [hof] at hsame
            simp [Happening.handsOut, hof, ← hsame]
      exact hone.append ih

namespace Pipeline

variable {δ : Type} {service : Service δ} {relay : RelaySettings}

/-- The journal grew by happenings with this property. -/
def Notes (w : Pipeline δ) (P : List Happening → Prop) (w' : Pipeline δ) : Prop :=
  ∃ happenings, w'.journal = w.journal ++ happenings ∧ P happenings

theorem Notes.trans {w w₁ w₂ : Pipeline δ} {P Q R : List Happening → Prop}
    (h : w.Notes P w₁) (h' : w₁.Notes Q w₂)
    (happend : ∀ before after, P before → Q after → R (before ++ after)) : w.Notes R w₂ := by
  obtain ⟨before, hbefore, hP⟩ := h
  obtain ⟨after, hafter, hQ⟩ := h'
  refine ⟨before ++ after, ?_, happend before after hP hQ⟩
  rw [hafter, hbefore, List.append_assoc]

theorem Notes.nothing {w w' : Pipeline δ} {P : List Happening → Prop}
    (hsame : w'.journal = w.journal) (h : P []) : w.Notes P w' :=
  ⟨[], by rw [hsame, List.append_nil], h⟩

section Collect

variable {consumer : String}

theorem claimStream_notes (minIdle count : Nat) (stream : String) (w : Pipeline δ) :
    (RedisStreamsBus.claimStream redisClient consumer minIdle count stream).Leads
      (machine service relay)
      (fun result w' => ∀ events, result = .ok events → w.Notes (Hands events) w') w := by
  apply Ensures.bind
  apply leads_send (.xpendingRange stream count minIdle)
  intro turn clock
  simp only [carryOut]
  split
  · intro events hevents
    cases hevents
    exact Notes.nothing rfl Hands.nothing
  · apply Ensures.bind
    apply leads_send (.xclaim stream consumer minIdle _)
    intro turn' clock'
    simp only [carryOut, claimGroup]
    apply (retryable_leads stream _ _ _).mono (fun _ h => h)
    intro result w' hevents events hok
    obtain ⟨hsame, hdelivers⟩ := hevents events hok
    rw [hsame]
    exact ⟨_, rfl, hdelivers.hands⟩

theorem claimStreams_notes (minIdle count : Nat) (eventTypes : List EventType)
    (w : Pipeline δ) :
    (RedisStreamsBus.claimStreams redisClient consumer minIdle count eventTypes).Leads
      (machine service relay)
      (fun result w' => ∀ events, result = .ok events → w.Notes (Hands events) w') w := by
  induction eventTypes generalizing w with
  | nil =>
      intro events hevents
      cases hevents
      exact Notes.nothing rfl Hands.nothing
  | cons eventType rest ih =>
      apply Ensures.bind
      apply (claimStream_notes minIdle count eventType.streamFor w).mono (fun _ h => h)
      intro result w₁ hfirst
      cases result with
      | error e => exact fun _ hok => by cases hok
      | ok events =>
          apply Ensures.bind
          apply (ih w₁).mono (fun _ h => h)
          intro result w₂ hrest
          cases result with
          | error e => exact fun _ hok => by cases hok
          | ok others =>
              intro batch hbatch
              cases hbatch
              exact (hfirst events rfl).trans (hrest others rfl) fun _ _ => Hands.append

/-- Of the answers of one read, in their order. -/
def handedOut (answers : List (String × List (Nat × Wire))) : List Happening :=
  answers.flatMap fun answer =>
    answer.2.map fun message => .handedOut answer.1 message.1 message.2

theorem readGroups_journal (consumer : String) (now count : Nat) (streams : List String)
    (w : Pipeline δ) :
    (readGroups consumer now count streams w).2.journal =
      w.journal ++ handedOut (readGroups consumer now count streams w).1 := by
  induction streams generalizing w with
  | nil => exact (List.append_nil _).symm
  | cons stream rest ih =>
      simp only [readGroups]
      rw [ih]
      simp [handedOut, noted, setStream]

theorem handedOut_nonempty (answers : List (String × List (Nat × Wire))) :
    handedOut (answers.filter fun answer => answer.2 ≠ []) = handedOut answers := by
  induction answers with
  | nil => rfl
  | cons answer rest ih =>
      by_cases hempty : answer.2 = []
      · rw [List.filter_cons_of_neg (by simpa using hempty), ih]
        simp [handedOut, hempty]
      · rw [List.filter_cons_of_pos (by simpa using hempty)]
        simp only [handedOut, List.flatMap_cons] at ih ⊢
        rw [ih]

theorem hands_answers {number : Nat → Nat} {answers : List (String × List (Nat × Wire))}
    {groups : List (List DeliveredEvent)}
    (h : List.Forall₂ (fun answer group => Delivers answer.1 number answer.2 group)
      answers groups) : Hands groups.flatten (handedOut answers) := by
  induction h with
  | nil => exact Hands.nothing
  | cons hfirst _ ih => exact hfirst.hands.append ih

theorem readNew_notes (eventTypes : List EventType) (count : Nat) (w : Pipeline δ) :
    (RedisStreamsBus.readNew redisClient eventTypes consumer count).Leads
      (machine service relay)
      (fun result w' => ∀ events, result = .ok events → w.Notes (Hands events) w') w := by
  unfold RedisStreamsBus.readNew
  split
  · intro events hevents
    cases hevents
    exact Notes.nothing rfl Hands.nothing
  · apply Ensures.bind
    apply leads_send (.xreadgroup consumer (eventTypes.map EventType.streamFor) count)
    intro turn clock
    simp only [carryOut]
    have hjournal := readGroups_journal consumer clock count
      (eventTypes.map EventType.streamFor) { w with clock }
    apply Ensures.bind
    apply Ensures.ofExcept
    cases hdecode : List.mapM (fun answer : String × List (Nat × Wire) =>
        RedisStreamsBus.firstDeliveries answer.1 answer.2)
        ((readGroups consumer clock count (eventTypes.map EventType.streamFor)
          { w with clock }).1.filter fun answer => answer.2 ≠ []) with
    | error e => exact fun _ hok => by cases hok
    | ok groups =>
        intro events hevents
        cases hevents
        have hgroups : List.Forall₂
            (fun answer group => Delivers answer.1 (fun _ => 1) answer.2 group)
            ((readGroups consumer clock count (eventTypes.map EventType.streamFor)
              { w with clock }).1.filter fun answer => answer.2 ≠ []) groups :=
          (forall₂_of_mapM_ok hdecode).imp fun _ _ h => delivers_of_mapM h
        have hhands := hands_answers hgroups
        rw [handedOut_nonempty] at hhands
        exact ⟨_, hjournal, hhands⟩

theorem collect_notes (settings : ConsumerSettings) (eventTypes : List EventType)
    (w : Pipeline δ) :
    (consumerRuntime settings eventTypes consumer).collect.Leads (machine service relay)
      (fun result w' => ∀ batch, result = .ok batch → w.Notes (Hands batch) w') w := by
  apply Ensures.bind
  apply Ensures.bind
  apply (claimStreams_notes settings.claimIdleMs settings.batch eventTypes w).mono
    (fun _ h => h)
  intro result w₁ hstale
  cases result with
  | error e => exact fun _ hok => by cases hok
  | ok stale =>
      apply Ensures.bind
      apply (readNew_notes eventTypes settings.batch w₁).mono (fun _ h => h)
      intro result w₂ hfresh
      cases result with
      | error e => exact fun _ hok => by cases hok
      | ok fresh =>
          intro batch hbatch
          cases hbatch
          exact (hstale stale rfl).trans (hfresh fresh rfl) fun _ _ => Hands.append

end Collect

section Handle

variable {settings : ConsumerSettings} {eventTypes : List EventType} {consumer : String}

theorem ack_notes (stream : String) (id : Nat) (w : Pipeline δ) :
    (send (.xack stream id)).Leads (machine service relay)
      (fun _ w' => w'.journal = w.journal) w :=
  leads_send (.xack stream id) fun _ _ => rfl

theorem record_notes (item : DeadLetter) (w : Pipeline δ) :
    (send (.recordDeadLetter item)).Leads (machine service relay)
      (fun _ w' => w'.journal = w.journal) w := by
  apply leads_send (.recordDeadLetter item)
  intro turn clock
  simp only [carryOut, recordedDeadLetter]
  split <;> rfl

theorem covers_deadLetter (d : DeliveredEvent) (error : Option BusError) (recorded : Bool) :
    Covers [d] [.deadLettered ⟨d, error⟩ recorded] :=
  ⟨fun _ _ => rfl, by simp [Happening.reaches, DeliveredEvent.isOf]⟩

theorem covers_dispatched (d : DeliveredEvent) (result : Except BusError Unit) :
    Covers [d] [.dispatched d result] :=
  ⟨fun _ _ => rfl, by simp [Happening.reaches, DeliveredEvent.isOf]⟩

/-- With every dead letter the message is handled once more. -/
theorem reject_notes (d : DeliveredEvent) (error : Option BusError) (w : Pipeline δ) :
    ((consumerRuntime settings eventTypes consumer).reject d error).Leads
      (machine service relay) (fun _ w' => w.Notes (Covers [d]) w') w := by
  apply Ensures.bind
  apply leads_send (.xaddDeadLetter ⟨d, error⟩)
  intro turn clock
  apply Ensures.bind
  apply (record_notes ⟨d, error⟩ _).mono (fun _ h => h)
  intro result w₁ hsame
  have hnotes : w.Notes (Covers [d]) w₁ := ⟨_, hsame, covers_deadLetter d error _⟩
  cases result with
  | error e => exact hnotes
  | ok _ =>
      apply (ack_notes d.stream d.messageId w₁).mono (fun _ h => h)
      intro result w₂ hack
      obtain ⟨happenings, hjournal, hcovers⟩ := hnotes
      exact ⟨happenings, hack.trans hjournal, hcovers⟩

theorem handle_notes (d : DeliveredEvent) (w : Pipeline δ) :
    ((consumerRuntime settings eventTypes consumer).handle d).Leads (machine service relay)
      (fun _ w' => w.Notes (Covers [d]) w') w := by
  unfold ConsumerRuntime.handle
  split
  · exact reject_notes d none w
  · have hhandler : ∀ e w₁, w.Notes (Covers [d]) w₁ →
        (if (consumerRuntime settings eventTypes consumer).maxDelivery ≤ d.deliveryCount then
            (consumerRuntime settings eventTypes consumer).reject d (some e)
          else pure ()).Leads (machine service relay)
            (fun _ w' => w.Notes (Covers [d]) w') w₁ := by
      intro e w₁ hnotes
      split
      · apply (reject_notes d (some e) w₁).mono (fun _ h => h)
        intro _ w₂ hmore
        apply hnotes.trans hmore
        intro before after hbefore hafter
        refine ⟨hbefore.1.append hafter.1, ?_⟩
        intro d' hd'
        rw [List.any_append, hbefore.2 d' hd', Bool.true_or]
      · exact hnotes
    apply Ensures.tryCatch
    apply Ensures.bind
    apply leads_send (.dispatch d)
    intro turn clock
    have hnotes : w.Notes (Covers [d])
        (carryOut service relay turn (.dispatch d) { w with clock }).2 := by
      simp only [carryOut, dispatched]
      split
      · exact ⟨_, rfl, covers_dispatched d _⟩
      · exact ⟨_, rfl, covers_dispatched d _⟩
    cases (carryOut service relay turn (.dispatch d) { w with clock }).1 with
    | error e => exact hhandler e _ hnotes
    | ok _ =>
        apply (ack_notes d.stream d.messageId _).mono (fun _ h => h)
        intro result w₁ hack
        have hnotes₁ : w.Notes (Covers [d]) w₁ := by
          obtain ⟨happenings, hjournal, hcovers⟩ := hnotes
          exact ⟨happenings, hack.trans hjournal, hcovers⟩
        cases result with
        | error e => exact hhandler e w₁ hnotes₁
        | ok _ => exact hnotes₁

theorem handleAll_notes (batch : List DeliveredEvent) (w : Pipeline δ) :
    ((consumerRuntime settings eventTypes consumer).handleAll batch).Leads
      (machine service relay)
      (fun result w' => ∀ n, result = .ok n → w.Notes (Covers batch) w') w := by
  induction batch generalizing w with
  | nil => exact fun _ _ => Notes.nothing rfl ⟨Hands.nothing, by simp⟩
  | cons d rest ih =>
      apply Ensures.bind
      apply (handle_notes d w).mono (fun _ h => h)
      intro result w₁ hfirst
      cases result with
      | error e => exact fun _ hok => by cases hok
      | ok _ =>
          apply Ensures.bind
          apply (ih w₁).mono (fun _ h => h)
          intro result w₂ hrest
          cases result with
          | error e => exact fun _ hok => by cases hok
          | ok handled =>
              exact fun _ _ => hfirst.trans (hrest handled rfl) fun _ _ => Covers.append

end Handle

/-! ## A poll which returns -/

/-- A well-formed message which was handed out went to the handler or to the dead
letters. -/
def ReachedIn (happenings : List Happening) : Happening → Prop
  | .handedOut stream id fields => fields.envelope?.isSome = true →
      happenings.any (Happening.reaches stream id) = true
  | .dispatched _ _ | .deadLettered _ _ => True

instance (happenings : List Happening) (happening : Happening) :
    Decidable (ReachedIn happenings happening) :=
  match happening with
  | .handedOut _ _ _ => inferInstanceAs (Decidable (_ → _))
  | .dispatched _ _ | .deadLettered _ _ => .isTrue trivial

def Reached (happenings : List Happening) : Prop :=
  ∀ happening ∈ happenings, ReachedIn happenings happening

instance (happenings : List Happening) : Decidable (Reached happenings) :=
  inferInstanceAs (Decidable (∀ happening ∈ happenings, ReachedIn happenings happening))

theorem Reached.of_batch {batch : List DeliveredEvent} {before after : List Happening}
    (hhands : Hands batch before) (hcovers : Covers batch after) :
    Reached (before ++ after) := by
  intro happening hmem
  cases happening with
  | dispatched d result => trivial
  | deadLettered item recorded => trivial
  | handedOut stream id fields =>
  intro _
  have hout : (Happening.handedOut stream id fields).handsOut stream id = true := by
    simp [Happening.handsOut]
  have hmany : 0 < (before ++ after).countP (Happening.handsOut stream id) :=
    List.countP_pos_iff.mpr ⟨_, hmem, hout⟩
  have hcount := (hhands.append hcovers.1) stream id
  rw [List.append_nil] at hcount
  rw [hcount, List.length_pos_iff] at hmany
  obtain ⟨d, hd⟩ := List.exists_mem_of_ne_nil _ hmany
  obtain ⟨hbatch, hof⟩ := List.mem_filter.mp hd
  obtain ⟨hstream, hid⟩ := DeliveredEvent.isOf_iff.mp hof
  rw [List.any_append, ← hstream, ← hid, hcovers.2 d hbatch, Bool.or_true]

/-- The messages handed out so far, of one stream entry. -/
def handed (stream : String) (id : Nat) (w : Pipeline δ) : Nat :=
  w.journal.countP (Happening.handsOut stream id)

theorem Notes.handed {w w' : Pipeline δ} {batch : List DeliveredEvent} (stream : String)
    (id : Nat) (h : w.Notes (Hands batch) w') :
    w'.handed stream id = w.handed stream id + (batch.filter (·.isOf stream id)).length := by
  obtain ⟨happenings, hjournal, hhands⟩ := h
  unfold Pipeline.handed
  rw [hjournal, List.countP_append, hhands stream id]

/-- The deliveries which Redis reports, for a limit which a delivery can be below. -/
def policy (settings : ConsumerSettings) : RetryPolicy :=
  .countingBefore (max 1 settings.maxDelivery) (Nat.le_max_left ..)

/-- A poll which returns reaches what it was handed, and spends a delivery of each. -/
theorem runOnce_notes (service : Service δ) (relay : RelaySettings)
    (settings : ConsumerSettings) (consumer stream : String) (id : Nat)
    {start : Tally} {w : Pipeline δ}
    (hspends : Watched.Spends (policy settings) start (w.handed stream id)
      (w.tally stream id)) :
    (consumerRuntime settings service.eventTypes consumer).runOnce.Leads
      (machine service relay)
      (fun result w' => ∀ n, result = .ok n → w.Notes Reached w' ∧
        Watched.Spends (policy settings) start (w'.handed stream id)
          (w'.tally stream id)) w := by
  have hpositive : 1 ≤ max 1 settings.maxDelivery := Nat.le_max_left ..
  let watching := watched service relay settings hpositive service.nodup consumer stream id
  apply Ensures.bind
  apply ((collect_notes settings service.eventTypes w).and
    (watching.collect w hspends.2)).mono (fun _ h => h)
  rintro result w₁ ⟨hnotes, hhands⟩
  cases result with
  | error e => exact fun _ hok => by cases hok
  | ok batch =>
      have hnotes := hnotes batch rfl
      apply ((handleAll_notes batch w₁).and (watching.handleAll_spends
        (RetryPolicy.countingBefore_mono _ hpositive)
        (RetryPolicy.countingBefore_reported _ hpositive) rfl hspends (hhands batch rfl))).mono
        (fun _ h => h)
      rintro result w₂ ⟨hhandled, hspends₂⟩ n hn
      have hhandled := hhandled n hn
      refine ⟨hnotes.trans hhandled fun _ _ => Reached.of_batch, ?_⟩
      have hcount : w₂.handed stream id =
          w.handed stream id + (batch.filter (·.isOf stream id)).length := by
        have hnone : w₁.Notes (Hands []) w₂ := by
          obtain ⟨happenings, hjournal, hcovers⟩ := hhandled
          exact ⟨happenings, hjournal, hcovers.1⟩
        have hsame := Notes.handed stream id hnone
        have hmore := Notes.handed stream id hnotes
        exact hsame.trans hmore
      rw [hcount]
      exact hspends₂ n hn

/-! ## Nothing to choke on -/

/-- What Redis hands out decodes, and a dead letter has an envelope its table takes. -/
def Digestible (turn : Turn) (command : PipelineCommand) (w : Pipeline δ) : Prop :=
  match command with
  | .xclaim stream consumer minIdle ids =>
    ∀ message ∈ ((w.streams stream).claim consumer (w.clock + turn.elapsed) minIdle ids).2,
      message.2.envelope?.isSome = true
  | .xreadgroup consumer streams count =>
    ∀ answer ∈ (readGroups consumer (w.clock + turn.elapsed) count streams
      { w with clock := w.clock + turn.elapsed }).1,
      ∀ message ∈ answer.2, message.2.envelope?.isSome = true
  | .recordDeadLetter item => recordDeadLetter item = .ok ()
  | _ => True

instance (turn : Turn) (command : PipelineCommand) (w : Pipeline δ) :
    Decidable (Digestible turn command w) := by
  cases command <;> simp only [Digestible] <;> infer_instance

/-- The program does not raise, when its commands are digestible. -/
abbrev Succeeds (service : Service δ) (relay : RelaySettings) {α : Type}
    (program : Program PipelineCommand.Answer BusError α) (w : Pipeline δ) : Prop :=
  program.Alone (machine service relay) Digestible (fun result _ => result.isOk = true) w

section Succeeds

variable {consumer : String}

theorem Succeeds.bind {α β : Type} {program : Program PipelineCommand.Answer BusError α}
    {next : α → Program PipelineCommand.Answer BusError β} {w : Pipeline δ}
    (h : Succeeds service relay program w)
    (hnext : ∀ a w', Succeeds service relay (next a) w') :
    Succeeds service relay (program >>= next) w := by
  apply Heeds.bind
  apply h.mono
  intro result w' hok
  cases result with
  | error e => cases hok
  | ok a => exact hnext a w'

theorem deliveredEvent_succeeds (stream : String) (id count : Nat) {fields : Wire}
    (h : fields.envelope?.isSome = true) :
    ∃ d, RedisStreamsBus.deliveredEvent stream id fields count = .ok d := by
  cases fields with
  | body envelope => exact ⟨_, rfl⟩
  | other text => cases h

theorem exists_mapM_ok {ε α β : Type} {f : α → Except ε β} {xs : List α}
    (h : ∀ x ∈ xs, ∃ y, f x = .ok y) : ∃ ys, xs.mapM f = .ok ys := by
  induction xs with
  | nil => exact ⟨[], rfl⟩
  | cons x rest ih =>
      obtain ⟨y, hy⟩ := h x List.mem_cons_self
      obtain ⟨ys, hys⟩ := ih fun x hx => h x (List.mem_cons_of_mem _ hx)
      refine ⟨y :: ys, ?_⟩
      rw [List.mapM_cons, hy, hys]
      rfl

theorem firstDeliveries_succeeds {stream : String} {messages : List (Nat × Wire)}
    (h : ∀ message ∈ messages, message.2.envelope?.isSome = true) :
    ∃ events, RedisStreamsBus.firstDeliveries stream messages = .ok events :=
  exists_mapM_ok fun message hmem => deliveredEvent_succeeds stream _ _ (h message hmem)

theorem retryable_succeeds (stream : String) (counts : List (Nat × Nat))
    {messages : List (Nat × Wire)}
    (h : ∀ message ∈ messages, message.2.envelope?.isSome = true) (w : Pipeline δ) :
    Succeeds service relay (RedisStreamsBus.retryable redisClient stream counts
      (messages.map fun message => (message.1, some message.2))) w := by
  induction messages generalizing w with
  | nil => exact rfl
  | cons message rest ih =>
      obtain ⟨d, hd⟩ := deliveredEvent_succeeds stream message.1
        ((counts.lookup message.1).getD 1) (h message List.mem_cons_self)
      simp only [List.map_cons, RedisStreamsBus.retryable, hd]
      have hdecoded : Succeeds service relay (Program.ofExcept (.ok d)) w := rfl
      apply hdecoded.bind
      intro d' w'
      apply Succeeds.bind
      · exact ih (fun message hmem => h message (List.mem_cons_of_mem _ hmem)) w'
      · exact fun _ _ => rfl

theorem claimStream_succeeds (minIdle count : Nat) (stream : String) (w : Pipeline δ) :
    Succeeds service relay
      (RedisStreamsBus.claimStream redisClient consumer minIdle count stream) w := by
  apply Heeds.bind
  apply Alone.perform
  intro turn _
  simp only [machine, carryOut]
  split
  · exact rfl
  · apply Heeds.bind
    apply Alone.perform
    intro turn' hdigestible
    simp only [claimGroup]
    exact retryable_succeeds stream _ hdigestible _

theorem claimStreams_succeeds (minIdle count : Nat) (eventTypes : List EventType)
    (w : Pipeline δ) :
    Succeeds service relay
      (RedisStreamsBus.claimStreams redisClient consumer minIdle count eventTypes) w := by
  induction eventTypes generalizing w with
  | nil => exact rfl
  | cons eventType rest ih =>
      apply (claimStream_succeeds minIdle count eventType.streamFor w).bind
      intro events w₁
      apply (ih w₁).bind
      exact fun _ _ => rfl

theorem readNew_succeeds (eventTypes : List EventType) (count : Nat) (w : Pipeline δ) :
    Succeeds service relay
      (RedisStreamsBus.readNew redisClient eventTypes consumer count) w := by
  unfold RedisStreamsBus.readNew
  split
  · exact rfl
  · apply Heeds.bind
    apply Alone.perform
    intro turn hdigestible
    have hdecodes : ∃ groups, List.mapM (fun answer : String × List (Nat × Wire) =>
        RedisStreamsBus.firstDeliveries answer.1 answer.2)
        ((readGroups consumer (w.clock + turn.elapsed) count
          (eventTypes.map EventType.streamFor)
          { w with clock := w.clock + turn.elapsed }).1.filter fun answer => answer.2 ≠ []) =
        .ok groups := by
      apply exists_mapM_ok
      intro answer hmem
      exact firstDeliveries_succeeds (hdigestible answer (List.mem_of_mem_filter hmem))
    obtain ⟨groups, hgroups⟩ := hdecodes
    simp only [machine, carryOut, hgroups]
    exact rfl

theorem reject_succeeds (settings : ConsumerSettings) (eventTypes : List EventType)
    (d : DeliveredEvent) (error : Option BusError) (w : Pipeline δ) :
    Succeeds service relay ((consumerRuntime settings eventTypes consumer).reject d error)
      w := by
  apply Heeds.bind
  apply Alone.perform
  intro turn _
  apply Heeds.bind
  apply Alone.perform
  intro turn' hdigestible
  have hrecorded : recordDeadLetter ⟨d, error⟩ = .ok () := hdigestible
  simp only [machine, carryOut, recordedDeadLetter, hrecorded]
  apply Alone.perform
  exact fun _ _ => rfl

theorem handle_succeeds (settings : ConsumerSettings) (eventTypes : List EventType)
    (d : DeliveredEvent) (w : Pipeline δ) :
    Succeeds service relay ((consumerRuntime settings eventTypes consumer).handle d) w := by
  unfold ConsumerRuntime.handle
  split
  · exact reject_succeeds settings eventTypes d none w
  · apply Heeds.tryCatch
    apply Heeds.bind
    apply Alone.perform
    intro turn _
    have hhandler : ∀ e w₁, Succeeds service relay
        (if (consumerRuntime settings eventTypes consumer).maxDelivery ≤ d.deliveryCount then
            (consumerRuntime settings eventTypes consumer).reject d (some e)
          else pure ()) w₁ := by
      intro e w₁
      split
      · exact reject_succeeds settings eventTypes d (some e) w₁
      · exact rfl
    cases ((machine service relay).perform turn (.dispatch d) w).1 with
    | error e => exact hhandler e _
    | ok _ =>
        apply Alone.perform
        exact fun _ _ => rfl

/-- A poll whose commands are digestible does not raise. -/
theorem runOnce_succeeds (settings : ConsumerSettings) (eventTypes : List EventType)
    (w : Pipeline δ) :
    Succeeds service relay (consumerRuntime settings eventTypes consumer).runOnce w := by
  have hcollect : Succeeds service relay
      (consumerRuntime settings eventTypes consumer).collect w := by
    have hclaims : Succeeds service relay
        ((RedisStreamsBus.bus redisClient).claimStale eventTypes consumer
          settings.claimIdleMs settings.batch) w := by
      apply (claimStreams_succeeds settings.claimIdleMs settings.batch eventTypes w).bind
      exact fun _ _ => rfl
    apply hclaims.bind
    intro stale w₁
    apply (readNew_succeeds eventTypes settings.batch w₁).bind
    exact fun _ _ => rfl
  apply hcollect.bind
  intro batch w₁
  induction batch generalizing w₁ with
  | nil => exact rfl
  | cons d rest ih =>
      apply (handle_succeeds settings eventTypes d w₁).bind
      intro _ w₂
      apply (ih w₂).bind
      exact fun _ _ => rfl

end Succeeds

/-! ## Runs -/

section Runs

variable (service relay) (settings : ConsumerSettings)

/-- The poll is given a turn for each of its commands. -/
def Completes (w : Pipeline δ) : BusStep Appended Turn → Prop
  | .add _ => True
  | .poll consumer turns =>
    ((consumerRuntime settings service.eventTypes consumer).runOnce.execute
      (machine service relay) turns w).result.isSome = true

instance (w : Pipeline δ) (step : BusStep Appended Turn) :
    Decidable (Completes service relay settings w step) :=
  match step with
  | .add _ => .isTrue trivial
  | .poll _ _ => inferInstanceAs (Decidable (_ = true))

/-- Nothing which is handed out or dead lettered in the poll is poison. -/
def Digests (w : Pipeline δ) : BusStep Appended Turn → Prop
  | .add _ => True
  | .poll consumer turns =>
    (consumerRuntime settings service.eventTypes consumer).runOnce.Meets
      (machine service relay) Digestible turns w

instance (w : Pipeline δ) (step : BusStep Appended Turn) :
    Decidable (Digests service relay settings w step) :=
  match step with
  | .add _ => .isTrue trivial
  | .poll _ _ => Meets.decide _ _ _ _ _

/-- Every well-formed message handed out in the step is handled in the step. -/
def ReachesAll (w : Pipeline δ) (step : BusStep Appended Turn) : Prop :=
  Reached ((((consumers service relay settings).step step w).journal).drop w.journal.length)

instance (w : Pipeline δ) (step : BusStep Appended Turn) :
    Decidable (ReachesAll service relay settings w step) :=
  inferInstanceAs (Decidable (Reached _))

/-- A message which keeps failing was handed out at most once more than the limit, and with
the last of the deliveries it had left it was dead lettered and acknowledged. -/
def GivenUpInTime (w w' : Pipeline δ) (stream : String) (id : Nat) : Prop :=
  w'.journal.any (Happening.succeeds stream id) = true ∨
    (w'.handed stream id ≤ settings.maxDelivery + 1 ∧
      (w'.handed stream id = ((w.streams stream).stage id).left (policy settings) →
        0 < w'.handed stream id →
        (w'.streams stream).stage id = .gone ∧
          w.dlq.countP (·.delivered.isOf stream id) <
            w'.dlq.countP (·.delivered.isOf stream id)))

instance (w w' : Pipeline δ) (stream : String) (id : Nat) :
    Decidable (GivenUpInTime settings w w' stream id) :=
  inferInstanceAs (Decidable (_ ∨ (_ ∧ (_ → _ → _ ∧ _))))

/-- What a poison message does not do to others, and what becomes of it. -/
def HarmsOnlyItself (w : Pipeline δ) (steps : List (BusStep Appended Turn)) : Prop :=
  AdmittedRun (consumers service relay settings).step (ReachesAll service relay settings) w
      steps ∧
    ∀ stream id, GivenUpInTime settings w
      (runSteps (consumers service relay settings).step w steps) stream id

variable {service relay settings}

/-- What every message spent since the start of the run. -/
def Accounts (settings : ConsumerSettings) (start : String → Nat → Tally) (w : Pipeline δ) :
    Prop :=
  ∀ stream id, Watched.Spends (policy settings) (start stream id) (w.handed stream id)
    (w.tally stream id)

theorem Accounts.start {w : Pipeline δ} (hjournal : w.journal = [])
    (hcounted : ∀ stream id k, (w.streams stream).stage id = .pending k → 1 ≤ k) :
    Accounts settings (fun stream id => w.tally stream id) w := by
  intro stream id
  refine ⟨?_, hcounted stream id⟩
  have hnone : w.handed stream id = 0 := by
    unfold handed
    rw [hjournal]
    rfl
  rw [hnone]
  exact Spent.start _

theorem Accounts.step {start : String → Nat → Tally} {w : Pipeline δ}
    (h : Accounts settings start w) {step : BusStep Appended Turn}
    (hcompletes : Completes service relay settings w step)
    (hdigests : Digests service relay settings w step) :
    ReachesAll service relay settings w step ∧
      Accounts settings start ((consumers service relay settings).step step w) := by
  cases step with
  | add entry =>
      refine ⟨?_, ?_⟩
      · have hsame : ((consumers service relay settings).step (.add entry) w).journal =
            w.journal := rfl
        unfold ReachesAll
        rw [hsame, List.drop_length]
        exact fun _ hmem => by cases hmem
      · intro stream id
        have htally := tally_append stream id entry w
        have hspends := h stream id
        rw [← htally] at hspends
        exact hspends
  | poll consumer turns =>
      obtain ⟨result, hresult⟩ := Option.isSome_iff_exists.mp hcompletes
      have hok := (runOnce_succeeds settings service.eventTypes w).execute hdigests hresult
      cases result with
      | error e => cases hok
      | ok n =>
      have hnotes : ∀ stream id, _ := fun stream id =>
        (runOnce_notes service relay settings consumer stream id (h stream id)).execute turns
      simp only [hresult] at hnotes
      refine ⟨?_, fun stream id => (hnotes stream id n rfl).2⟩
      obtain ⟨happenings, hjournal, hreached⟩ := (hnotes "" 0 n rfl).1
      unfold ReachesAll
      have hsince : List.drop w.journal.length
          ((consumers service relay settings).step (.poll consumer turns) w).journal =
            happenings :=
        (congrArg (List.drop w.journal.length) hjournal).trans List.drop_left
      rw [hsince]
      exact hreached

theorem Accounts.run {start : String → Nat → Tally} {w : Pipeline δ}
    (h : Accounts settings start w) {steps : List (BusStep Appended Turn)}
    (hsteps : AdmittedRun (consumers service relay settings).step
      (fun w step => Completes service relay settings w step ∧
        Digests service relay settings w step) w steps) :
    AdmittedRun (consumers service relay settings).step (ReachesAll service relay settings) w
        steps ∧
      Accounts settings start (runSteps (consumers service relay settings).step w steps) := by
  induction steps generalizing w with
  | nil => exact ⟨trivial, h⟩
  | cons step rest ih =>
      obtain ⟨⟨hcompletes, hdigests⟩, hrest⟩ := hsteps
      obtain ⟨hreaches, hstep⟩ := h.step hcompletes hdigests
      obtain ⟨hlater, hend⟩ := ih hstep hrest
      exact ⟨⟨hreaches, hlater⟩, hend⟩

theorem left_le (settings : ConsumerSettings) (stage : Stage) :
    stage.left (policy settings) ≤ settings.maxDelivery + 1 := by
  have hbudget : (policy settings).budget ≤ settings.maxDelivery + 1 := by
    simp only [policy, RetryPolicy.countingBefore]
    split <;> omega
  have hleft : ∀ k, (policy settings).left k ≤ settings.maxDelivery + 1 := by
    intro k
    unfold RetryPolicy.left
    omega
  cases stage with
  | unread => exact hleft 0
  | pending k => exact hleft k
  | gone => exact Nat.zero_le _

theorem Accounts.givenUp {w w' : Pipeline δ}
    (h : Accounts settings (fun stream id => w.tally stream id) w') (stream : String)
    (id : Nat) : GivenUpInTime settings w w' stream id := by
  have hle := left_le settings ((w.streams stream).stage id)
  have hspent : Spent (policy settings) (w.tally stream id) (w'.handed stream id)
      (w'.tally stream id) := (h stream id).1
  have hleft : (w.tally stream id).stage.left (policy settings) =
      ((w.streams stream).stage id).left (policy settings) := rfl
  apply hspent.imp (fun hsuccess => hsuccess)
  intro hcases
  rcases hcases with ⟨hreach, hspent, _⟩ | ⟨hgone, hspent, hdropped⟩
  · have hpositive := Stage.left_pos (policy settings) hreach
    refine ⟨by omega, ?_⟩
    intro hall
    omega
  · exact ⟨by omega, fun hall hpositive => ⟨hgone, hdropped hall hpositive⟩⟩

/-- In a run whose polls hand out and dead letter nothing poisonous, every message reaches
the handler or the dead letters with the poll it is handed to, and none is delivered
without end. -/
theorem digested_runs_harm_nobody (service : Service δ) (relay : RelaySettings)
    (settings : ConsumerSettings) {w : Pipeline δ} (hjournal : w.journal = [])
    (hcounted : ∀ stream id k, (w.streams stream).stage id = .pending k → 1 ≤ k)
    {steps : List (BusStep Appended Turn)}
    (hsteps : AdmittedRun (consumers service relay settings).step
      (fun w step => Completes service relay settings w step ∧
        Digests service relay settings w step) w steps) :
    HarmsOnlyItself service relay settings w steps := by
  obtain ⟨hreaches, haccounts⟩ := (Accounts.start hjournal hcounted).run hsteps
  exact ⟨hreaches, haccounts.givenUp⟩

end Runs

end Pipeline

/-! ## Poison -/

section Poison

open Pipeline

/-- A request whose event id is no UUID. -/
def unnamedEvent : Envelope :=
  ⟨.malformed "event-1", .transferRequested, "wallet-service", "correlation", [], []⟩

def poisonEntry (fields : Wire) : Appended := ⟨refusedStream, fields, 0, 0⟩

def poisonSettings : ConsumerSettings := ⟨1, 0, 2⟩

/-- One poll for a message and one behind it, or three polls for the message alone. -/
def poisonPoll : BusStep Appended Turn :=
  .poll "consumer" (List.replicate 9 { refusedTurn with raises := none })

def besidePoison (fields : Wire) : List (BusStep Appended Turn) :=
  [.add (poisonEntry fields), .add refusedEntry, poisonPoll]

def poisonAlone (fields : Wire) : List (BusStep Appended Turn) :=
  [.add (poisonEntry fields), poisonPoll, poisonPoll, poisonPoll]

theorem refused_message_is_given_up :
    let service := Blockchain.service
    let steps := [.add refusedEntry, refusedPoll, refusedPoll, refusedPoll]
    AdmittedRun (refusedConsumers 2).step
        (fun w step => Completes service ⟨100, 60⟩ ⟨2, 0, 1⟩ w step ∧
          Digests service ⟨100, 60⟩ ⟨2, 0, 1⟩ w step) (fresh Blockchain.Db.empty) steps ∧
      HarmsOnlyItself service ⟨100, 60⟩ ⟨2, 0, 1⟩ (fresh Blockchain.Db.empty) steps := by
  have hsteps : AdmittedRun (refusedConsumers 2).step
      (fun w step => Completes Blockchain.service ⟨100, 60⟩ ⟨2, 0, 1⟩ w step ∧
        Digests Blockchain.service ⟨100, 60⟩ ⟨2, 0, 1⟩ w step) (fresh Blockchain.Db.empty)
      [.add refusedEntry, refusedPoll, refusedPoll, refusedPoll] := by decide +kernel
  refine ⟨hsteps, digested_runs_harm_nobody Blockchain.service ⟨100, 60⟩ ⟨2, 0, 1⟩ rfl ?_ hsteps⟩
  exact fun _ id k hpending => absurd hpending (stage_empty id k)

/-- A body which is no envelope, and an event id which is no UUID: the message behind is
not handled with the poll it is handed to, and the poison is delivered a third time where
the limit allows one. -/
theorem poison_harms_others :
    let service := Blockchain.service
    let start := fresh Blockchain.Db.empty
    let bus := consumers service ⟨100, 60⟩ poisonSettings
    ∀ fields ∈ [Wire.other "not an envelope", unnamedEvent.toWire],
      AdmittedRun bus.step (Completes service ⟨100, 60⟩ poisonSettings) start
          (besidePoison fields) ∧
        ¬ AdmittedRun bus.step (ReachesAll service ⟨100, 60⟩ poisonSettings) start
          (besidePoison fields) ∧
        AdmittedRun bus.step (Completes service ⟨100, 60⟩ poisonSettings) start
          (poisonAlone fields) ∧
        ¬ GivenUpInTime poisonSettings start (runSteps bus.step start (poisonAlone fields))
          refusedStream 1 := by
  decide +kernel

end Poison

end CryptoWallet
