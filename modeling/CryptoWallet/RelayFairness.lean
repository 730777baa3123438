import CryptoWallet.Transaction
import CryptoWallet.Events
import CryptoWallet.TurnQueue

/-!
# The relay gets to every event

Events which cannot be published stay in the outbox and come before the later ones.  Each
attempt delays the next one, so they cannot keep a later event from its turn for long.
-/

namespace CryptoWallet

open Tx

/-- Events are enqueued between the rounds of the relay. -/
inductive OutboxStep where
  | enqueue (envelope : Envelope)
  | relay (now : Nat) (publishError : EventId → Option String)

namespace OutboxStep

def run (settings : RelaySettings) (step : OutboxStep) (outbox : Outbox) : Outbox :=
  match step with
  | .enqueue envelope =>
    match enqueueEvent outbox envelope with
    | .ok outbox' => outbox'
    | .error _ => outbox
  | .relay now publishError => (relayOnce settings now publishError outbox).1

/-- The time after the step. -/
def clock (now : Nat) : OutboxStep → Nat
  | .enqueue _ => now
  | .relay time _ => time

def isRound : OutboxStep → Bool
  | .enqueue _ => false
  | .relay _ _ => true

end OutboxStep

/-- The clock does not go back. -/
def Clocked (now : Nat) : List OutboxStep → Prop
  | [] => True
  | step :: rest => now ≤ step.clock now ∧ Clocked (step.clock now) rest

/-- Every error of the bus fits the column `last_error`. -/
def OutboxStep.Recordable : OutboxStep → Prop
  | .enqueue _ => True
  | .relay _ publishError => ∀ id error, publishError id = some error → recordable error = true

instance Clocked.decidable : (now : Nat) → (steps : List OutboxStep) →
    Decidable (Clocked now steps)
  | _, [] => .isTrue trivial
  | now, step :: rest =>
    have := Clocked.decidable (step.clock now) rest
    inferInstanceAs (Decidable (_ ∧ _))

def lastClock (now : Nat) (steps : List OutboxStep) : Nat := steps.foldl OutboxStep.clock now

/-! ## Attempts -/

namespace OutboxRow

/-- The failed attempts and the successful one. -/
def visits (row : OutboxRow) : Nat :=
  row.attempts + if row.publishedAt.isSome then 1 else 0

def nextTime (row : OutboxRow) : Nat := row.nextAttemptAt.getD 0

theorem due_iff {now : Nat} {row : OutboxRow} :
    row.due now = true ↔ row.publishedAt = none ∧ row.nextTime ≤ now := by
  unfold due nextTime
  cases row.publishedAt <;> cases row.nextAttemptAt <;> simp

theorem due_mono {now now' : Nat} {row : OutboxRow} (h : row.due now = true)
    (hnow : now ≤ now') : row.due now' = true := by
  rw [due_iff] at h ⊢
  exact ⟨h.1, h.2.trans hnow⟩

theorem attempted_visits {settings : RelaySettings} {now time : Nat}
    {publishError : Option String} {row : OutboxRow} (hdue : row.due now = true) :
    (row.attempted settings time publishError).visits = row.visits + 1 := by
  have hopen := (due_iff.mp hdue).1
  unfold attempted visits
  cases publishError <;> simp [hopen]

end OutboxRow

/-- From the seventh failure on, attempts are this far apart. -/
def RelaySettings.pace (settings : RelaySettings) : Nat := min settings.maxBackoff 64

theorem backoff_of_settled {settings : RelaySettings} {row : OutboxRow}
    (h : 6 ≤ row.attempts) : backoff settings row = settings.pace := by
  unfold backoff RelaySettings.pace
  rw [Nat.min_eq_right h]
  rfl

/-- One row of the outbox, compared with what it was at `start`. -/
structure Delayed (settings : RelaySettings) (start now : Nat) (row row' : OutboxRow) :
    Prop where
  closed : row.publishedAt.isSome = true → row' = row
  attempts : row.attempts ≤ row'.attempts
  paced : Paced settings.pace 7 start now (row'.attempts - row.attempts) row'.nextTime

section Delayed

variable {settings : RelaySettings} {start now now' : Nat} {row row' : OutboxRow}

theorem Delayed.refl (settings : RelaySettings) (start : Nat) (row : OutboxRow) :
    Delayed settings start start row row where
  closed := fun _ => rfl
  attempts := Nat.le_refl _
  paced := by
    rw [Nat.sub_self]
    exact .begin (by omega) start _

theorem Delayed.wait (h : Delayed settings start now row row') (hnow : now ≤ now') :
    Delayed settings start now' row row' :=
  ⟨h.closed, h.attempts, h.paced.wait hnow⟩

theorem Delayed.attempted (h : Delayed settings start now row row') (hnow : now ≤ now')
    (hdue : row'.due now' = true) (publishError : Option String) :
    Delayed settings start now' row (row'.attempted settings now' publishError) := by
  obtain ⟨hopen, hready⟩ := OutboxRow.due_iff.mp hdue
  have hunpublished : ¬row.publishedAt.isSome = true := by
    intro hclosed
    rw [h.closed hclosed] at hopen
    rw [hopen] at hclosed
    cases hclosed
  have hattempts := h.attempts
  cases publishError with
  | none => exact ⟨fun hclosed => (hunpublished hclosed).elim, hattempts, h.paced.wait hnow⟩
  | some error =>
      refine ⟨fun hclosed => (hunpublished hclosed).elim, by
        simp only [OutboxRow.attempted]
        omega, ?_⟩
      have hone : row'.attempts + 1 - row.attempts = row'.attempts - row.attempts + 1 := by omega
      simp only [OutboxRow.attempted, hone]
      apply h.paced.visit hnow hready
      intro hsettled
      rw [backoff_of_settled (by omega)]
      exact Nat.le_refl _

theorem Delayed.visits_le (h : Delayed settings start now row row')
    (hpace : 0 < settings.pace) :
    row'.visits ≤ row.visits +
      if row.publishedAt.isNone then 8 + (now - start) / settings.pace else 0 := by
  cases hpublished : row.publishedAt with
  | some time =>
      rw [h.closed (by rw [hpublished]; rfl)]
      simp
  | none =>
      have hvisits := h.paced.visits_le hpace
      have hattempts := h.attempts
      unfold OutboxRow.visits
      rw [hpublished]
      simp only [Option.isSome_none, Bool.false_eq_true, if_false, Option.isNone_none, if_true]
      split <;> omega

end Delayed

/-! ## A round -/

section Rounds

variable {settings : RelaySettings} {now : Nat} {publishError : EventId → Option String}
  {outbox : Outbox}

theorem relayed_eventId (batch : List OutboxRow) (row : OutboxRow) :
    (relayed settings now publishError batch row).eventId = row.eventId := by
  unfold relayed OutboxRow.eventId
  split
  · rw [OutboxRow.attempted_envelope]
  · rfl

theorem due_of_claimed {row : OutboxRow} (h : row ∈ claimBatch settings now outbox) :
    row.due now = true :=
  (List.mem_filter.mp (List.mem_of_mem_take h)).2

theorem nodup_of_append {before after : List OutboxRow} {row : OutboxRow}
    (hrows : outbox.rows = before ++ row :: after) : before.Nodup := by
  have hnodup := outbox.nodup.of_map
  rw [hrows] at hnodup
  exact hnodup.of_append_left

/-- While a row waits the rows before it take up the whole batch. -/
theorem relayOnce_waiting {before after : List OutboxRow} {row : OutboxRow}
    (hrows : outbox.rows = before ++ row :: after) (hdue : row.due now = true)
    (hwaits : row ∉ claimBatch settings now outbox)
    (hcompleted : (publishAll publishError (claimBatch settings now outbox)).2 = true) :
    ∃ batch after', batch.Sublist before ∧ batch.length = settings.batchSize ∧
      (∀ earlier ∈ batch, earlier.due now = true) ∧
      (relayOnce settings now publishError outbox).1.rows =
        before.map (relayed settings now publishError batch) ++ row :: after' := by
  have hclaimed : claimBatch settings now outbox =
      (outbox.rows.filter (OutboxRow.due now)).take settings.batchSize := rfl
  rw [hclaimed, hrows] at hwaits
  obtain ⟨hbatch, hfull⟩ := take_filter_of_waiting hdue hwaits
  have hsame : claimBatch settings now outbox =
      (before.filter (OutboxRow.due now)).take settings.batchSize := by
    rw [hclaimed, hrows, hbatch]
  have hkept : relayed settings now publishError (claimBatch settings now outbox) row = row := by
    unfold relayed
    rw [if_neg]
    rw [hclaimed, hrows]
    exact hwaits
  refine ⟨claimBatch settings now outbox, after.map (relayed settings now publishError
    (claimBatch settings now outbox)), ?_, ?_, ?_, ?_⟩
  · rw [hsame]
    exact (List.take_sublist _ _).trans List.filter_sublist
  · rw [hsame, List.length_take]
    exact Nat.min_eq_left hfull
  · intro earlier hmem
    exact due_of_claimed hmem
  · rw [relayOnce_rows hcompleted, hrows, List.map_append, List.map_cons, hkept]

theorem relayed_delayed {start before : Nat} {batch : List OutboxRow} {row row' : OutboxRow}
    (hbatch : ∀ earlier ∈ batch, earlier.due now = true) (hnow : before ≤ now)
    (h : Delayed settings start before row row') :
    Delayed settings start now row (relayed settings now publishError batch row') := by
  unfold relayed
  split
  · rename_i hmem
    exact h.attempted hnow (hbatch _ hmem) _
  · exact h.wait hnow

end Rounds

/-! ## A row and those before it -/

/-- An attempt has been made since the outbox had this row. -/
def Attempted (row : OutboxRow) (outbox : Outbox) : Prop :=
  ∃ row' ∈ outbox.rows, row'.eventId = row.eventId ∧ row.visits < row'.visits

/-- The row waits: the rows before it had the whole batch of each round. -/
structure Waiting (settings : RelaySettings) (start now rounds : Nat) (before : List OutboxRow)
    (row : OutboxRow) (outbox : Outbox) (before' after' : List OutboxRow) : Prop where
  rows : outbox.rows = before' ++ row :: after'
  delayed : List.Forall₂ (Delayed settings start now) before before'
  visits : (before'.map OutboxRow.visits).sum =
    (before.map OutboxRow.visits).sum + rounds * settings.batchSize

section Runs

variable {settings : RelaySettings} {start now rounds : Nat} {outbox : Outbox}
  {before before' after' : List OutboxRow} {row : OutboxRow}

theorem enqueueEvent_run_rows (settings : RelaySettings) (outbox : Outbox)
    (envelope : Envelope) :
    ∃ added, ((OutboxStep.enqueue envelope).run settings outbox).rows =
      outbox.rows ++ added := by
  simp only [OutboxStep.run]
  cases hresult : enqueueEvent outbox envelope with
  | error _ => exact ⟨[], (List.append_nil _).symm⟩
  | ok outbox' =>
      cases enqueueEvent_rows hresult with
      | inl hsame => exact ⟨[], by rw [hsame.2, List.append_nil]⟩
      | inr hadded => exact ⟨_, hadded.2⟩

theorem Attempted.step (h : Attempted row outbox) (step : OutboxStep) :
    Attempted row (step.run settings outbox) := by
  obtain ⟨row', hmem, hid, hvisits⟩ := h
  cases step with
  | enqueue envelope =>
      obtain ⟨added, hadded⟩ := enqueueEvent_run_rows settings outbox envelope
      refine ⟨row', ?_, hid, hvisits⟩
      rw [hadded]
      exact List.mem_append_left _ hmem
  | relay now publishError =>
      cases hcompleted : (publishAll publishError (claimBatch settings now outbox)).2 with
      | false =>
          refine ⟨row', ?_, hid, hvisits⟩
          simp only [OutboxStep.run, relayOnce_rolledBack hcompleted]
          exact hmem
      | true =>
          refine ⟨relayed settings now publishError (claimBatch settings now outbox) row',
            ?_, ?_, ?_⟩
          · simp only [OutboxStep.run, relayOnce_rows hcompleted]
            exact List.mem_map_of_mem hmem
          · rw [relayed_eventId, hid]
          · unfold relayed
            split
            · rename_i hbatch
              rw [OutboxRow.attempted_visits (due_of_claimed hbatch)]
              omega
            · exact hvisits

theorem Waiting.step (h : Waiting settings start now rounds before row outbox before' after')
    (hdue : row.due now = true) {step : OutboxStep} (hnow : now ≤ step.clock now)
    (hrecordable : step.Recordable) :
    Attempted row (step.run settings outbox) ∨
      ∃ before'' after'', Waiting settings start (step.clock now)
        (rounds + if step.isRound then 1 else 0) before row (step.run settings outbox)
        before'' after'' := by
  cases step with
  | enqueue envelope =>
      right
      obtain ⟨added, hadded⟩ := enqueueEvent_run_rows settings outbox envelope
      refine ⟨before', after' ++ added, ?_, h.delayed, h.visits⟩
      rw [hadded, h.rows, List.append_assoc, List.cons_append]
  | relay time publishError =>
      have hready := OutboxRow.due_mono hdue hnow
      have hcompleted : (publishAll publishError (claimBatch settings time outbox)).2 =
          true :=
        publishAll_completed_iff.mpr fun earlier _ => hrecordable earlier.eventId
      by_cases hbatch : row ∈ claimBatch settings time outbox
      · left
        have hmem : row ∈ outbox.rows := by
          rw [h.rows]
          simp
        refine ⟨relayed settings time publishError (claimBatch settings time outbox) row,
          ?_, relayed_eventId _ row, ?_⟩
        · simp only [OutboxStep.run, relayOnce_rows hcompleted]
          exact List.mem_map_of_mem hmem
        · rw [relayed, if_pos hbatch, OutboxRow.attempted_visits hready]
          omega
      · right
        obtain ⟨batch, after'', hsub, hlength, hbatchDue, hrows⟩ :=
          relayOnce_waiting h.rows hready hbatch hcompleted
        refine ⟨_, after'', hrows, ?_, ?_⟩
        · rw [List.forall₂_map_right_iff]
          exact h.delayed.imp fun _ _ hrow => relayed_delayed hbatchDue hnow hrow
        · have hsum := sum_visited hsub (nodup_of_append h.rows)
            (fun row => row.attempted settings time (publishError row.eventId))
            OutboxRow.visits
            fun earlier hmem => OutboxRow.attempted_visits (hbatchDue earlier hmem)
          simp only [OutboxStep.isRound, if_true]
          rw [Nat.add_mul, Nat.one_mul, ← Nat.add_assoc, ← h.visits, ← hlength]
          exact hsum

theorem Waiting.run {steps : List OutboxStep}
    (h : Waiting settings start now rounds before row outbox before' after')
    (hdue : row.due now = true) (hclock : Clocked now steps)
    (hrecordable : ∀ step ∈ steps, step.Recordable) :
    Attempted row (runSteps (OutboxStep.run settings) outbox steps) ∨
      ∃ before'' after'', Waiting settings start (lastClock now steps)
        (rounds + steps.countP OutboxStep.isRound) before row
        (runSteps (OutboxStep.run settings) outbox steps) before'' after'' := by
  induction steps generalizing now rounds outbox before' after' with
  | nil => exact Or.inr ⟨before', after', h⟩
  | cons step rest ih =>
      cases h.step hdue hclock.1 (hrecordable step List.mem_cons_self) with
      | inl hattempted =>
          left
          have hkeeps : ∀ outbox step, Attempted row outbox →
              Attempted row (OutboxStep.run settings step outbox) :=
            fun _ step hbefore => hbefore.step step
          exact runSteps_preserves hkeeps hattempted rest
      | inr hwaiting =>
          obtain ⟨_, _, hwaiting⟩ := hwaiting
          have hrest := ih hwaiting (OutboxRow.due_mono hdue hclock.1) hclock.2
            fun later hmem => hrecordable later (List.mem_cons_of_mem _ hmem)
          rw [Nat.add_right_comm, Nat.add_assoc, ← List.countP_cons] at hrest
          exact hrest

/-- The rows before one which waits have taken all turns, as often as they may. -/
theorem Waiting.rounds_le
    (h : Waiting settings start now rounds before row outbox before' after')
    (hpace : 0 < settings.pace) :
    rounds * settings.batchSize ≤
      before.countP (fun earlier => earlier.publishedAt.isNone) *
        (8 + (now - start) / settings.pace) := by
  have hsum := sum_le_of_forall₂ (h.delayed.imp fun _ _ hrow => hrow.visits_le hpace)
  rw [h.visits, sum_ite_const] at hsum
  omega

/-- The events which came before have at most these turns. -/
def turnsBefore (settings : RelaySettings) (start : Nat) (before : List OutboxRow)
    (steps : List OutboxStep) : Nat :=
  before.countP (fun earlier => earlier.publishedAt.isNone) *
    (8 + (lastClock start steps - start) / settings.pace)

theorem attempted_in_time {after : List OutboxRow} {steps : List OutboxStep}
    (hrows : outbox.rows = before ++ row :: after) (hdue : row.due start = true)
    (hclock : Clocked start steps) (hrecordable : ∀ step ∈ steps, step.Recordable)
    (hpace : 0 < settings.pace)
    (hrounds : turnsBefore settings start before steps <
      steps.countP OutboxStep.isRound * settings.batchSize) :
    Attempted row (runSteps (OutboxStep.run settings) outbox steps) := by
  have hbegin : Waiting settings start start 0 before row outbox before after :=
    ⟨hrows, List.forall₂_same.mpr fun earlier _ => .refl settings start earlier, by simp⟩
  cases hbegin.run hdue hclock hrecordable with
  | inl hattempted => exact hattempted
  | inr hwaiting =>
      obtain ⟨_, _, hwaiting⟩ := hwaiting
      have hturns := hwaiting.rounds_le hpace
      rw [Nat.zero_add] at hturns
      unfold turnsBefore at hrounds
      omega

end Runs

/-! ## An event which the bus accepts -/

def OutboxStep.accepts (id : EventId) : OutboxStep → Prop
  | .enqueue _ => True
  | .relay _ publishError => publishError id = none

instance (id : EventId) : DecidablePred (OutboxStep.accepts id)
  | .enqueue _ => .isTrue trivial
  | .relay _ publishError => inferInstanceAs (Decidable (publishError id = none))

def Unfailed (row : OutboxRow) (outbox : Outbox) : Prop :=
  ∃ row' ∈ outbox.rows, row'.envelope = row.envelope ∧ row'.attempts = row.attempts

def Published (envelope : Envelope) (outbox : Outbox) : Prop :=
  ∃ row ∈ outbox.rows, row.envelope = envelope ∧ row.publishedAt.isSome = true

section Accepted

variable {settings : RelaySettings} {start : Nat} {outbox : Outbox} {row : OutboxRow}

theorem Unfailed.step {step : OutboxStep} (h : Unfailed row outbox)
    (haccepts : step.accepts row.eventId) : Unfailed row (step.run settings outbox) := by
  obtain ⟨row', hmem, henvelope, hattempts⟩ := h
  cases step with
  | enqueue envelope =>
      obtain ⟨added, hadded⟩ := enqueueEvent_run_rows settings outbox envelope
      refine ⟨row', ?_, henvelope, hattempts⟩
      rw [hadded]
      exact List.mem_append_left _ hmem
  | relay now publishError =>
      have hid : row'.eventId = row.eventId := congrArg Envelope.eventId henvelope
      have haccepted : publishError row'.eventId = none := by
        rw [hid]
        exact haccepts
      cases hcompleted : (publishAll publishError (claimBatch settings now outbox)).2 with
      | false =>
          refine ⟨row', ?_, henvelope, hattempts⟩
          simp only [OutboxStep.run, relayOnce_rolledBack hcompleted]
          exact hmem
      | true =>
          refine ⟨relayed settings now publishError (claimBatch settings now outbox) row',
            ?_, ?_⟩
          · simp only [OutboxStep.run, relayOnce_rows hcompleted]
            exact List.mem_map_of_mem hmem
          · unfold relayed
            rw [haccepted]
            split
            · exact ⟨henvelope, hattempts⟩
            · exact ⟨henvelope, hattempts⟩

theorem Unfailed.run {steps : List OutboxStep} (h : Unfailed row outbox)
    (haccepts : ∀ step ∈ steps, step.accepts row.eventId) :
    Unfailed row (runSteps (OutboxStep.run settings) outbox steps) := by
  induction steps generalizing outbox with
  | nil => exact h
  | cons step rest ih =>
      exact ih (h.step (haccepts step List.mem_cons_self))
        fun later hmem => haccepts later (List.mem_cons_of_mem _ hmem)

theorem Unfailed.published (h : Unfailed row outbox) (hattempted : Attempted row outbox)
    (hopen : row.publishedAt = none) : Published row.envelope outbox := by
  obtain ⟨row', hmem, henvelope, hattempts⟩ := h
  obtain ⟨visited, hmem', hid, hvisits⟩ := hattempted
  have hkey : visited.eventId = row'.eventId := by
    rw [hid]
    exact (congrArg Envelope.eventId henvelope).symm
  have hsame := outbox.eq_of_mem_of_key_eq hmem' hmem hkey
  subst hsame
  refine ⟨visited, hmem, henvelope, ?_⟩
  unfold OutboxRow.visits at hvisits
  rw [hopen, hattempts] at hvisits
  cases hpublished : visited.publishedAt with
  | some time => rfl
  | none => simp [hpublished] at hvisits

/-- However many earlier events the bus refuses, with errors which can be recorded, an
event which it accepts is published as soon as there were more turns than those events can
have taken. -/
theorem accepted_events_are_published {before after : List OutboxRow}
    {steps : List OutboxStep} (hrows : outbox.rows = before ++ row :: after)
    (hdue : row.due start = true) (hclock : Clocked start steps)
    (hrecordable : ∀ step ∈ steps, step.Recordable)
    (hbackoff : 0 < settings.maxBackoff)
    (hrounds : turnsBefore settings start before steps <
      steps.countP OutboxStep.isRound * settings.batchSize)
    (haccepts : ∀ step ∈ steps, step.accepts row.eventId) :
    Published row.envelope (runSteps (OutboxStep.run settings) outbox steps) := by
  have hpace : 0 < settings.pace := by
    unfold RelaySettings.pace
    omega
  have hmem : row ∈ outbox.rows := by
    rw [hrows]
    simp
  have hunfailed : Unfailed row outbox := ⟨row, hmem, rfl, rfl⟩
  apply (hunfailed.run haccepts).published
  · exact attempted_in_time hrows hdue hclock hrecordable hpace hrounds
  · exact (OutboxRow.due_iff.mp hdue).1

end Accepted

section Refused

def queuedRow (name : String) : OutboxRow :=
  ⟨⟨.uuid5 name, .transferRequested, "wallet-service", "correlation", [], []⟩,
    none, 0, none, none⟩

def refusedFirst : Outbox := ⟨[queuedRow "refused", queuedRow "event"], by decide⟩

/-- The bus refuses the first event each time. -/
def nineRounds : List OutboxStep :=
  (List.range 9).map fun now =>
    .relay now fun id => if id = .uuid5 "refused" then some "refused" else none

theorem event_is_published_behind_a_refused_one :
    Published (queuedRow "event").envelope
      (runSteps (OutboxStep.run ⟨1, 60⟩) refusedFirst nineRounds) := by
  have hrows : refusedFirst.rows = [queuedRow "refused"] ++ queuedRow "event" :: [] := rfl
  have hdue : (queuedRow "event").due 0 = true := by decide
  have hrecordable : ∀ step ∈ nineRounds, step.Recordable := by
    intro step hstep
    obtain ⟨now, _, rfl⟩ := List.mem_map.mp hstep
    intro id error herror
    by_cases hid : id = .uuid5 "refused"
    · simp only [if_pos hid, Option.some.injEq] at herror
      subst herror
      decide
    · simp only [if_neg hid] at herror
      cases herror
  exact accepted_events_are_published hrows hdue (by decide) hrecordable (by decide)
    (by decide +kernel) (by decide)

end Refused

end CryptoWallet
