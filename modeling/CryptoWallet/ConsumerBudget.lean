import CryptoWallet.MessageBus
import CryptoWallet.StreamStages

/-!
# One message in the hands of the consumer runtime

The runtime is proved once for every bus.  A bus is described by what its commands
do to the tally of one message: a dispatch is an attempt, a dead letter gives the
message up, and a batch hands it out at most once, with the number which the policy
of the bus says.  A poll which returns then leaves the tally at rest.
-/

namespace CryptoWallet

open Program

def DeliveredEvent.isOf (stream : String) (id : Nat) (d : DeliveredEvent) : Bool :=
  d.stream = stream && d.messageId = id

theorem DeliveredEvent.isOf_iff {stream : String} {id : Nat} {d : DeliveredEvent} :
    d.isOf stream id = true ↔ d.stream = stream ∧ d.messageId = id := by
  simp [DeliveredEvent.isOf]

/-- What handing out does to the tally: nothing, the message is lost, or it is delivered
once more. -/
inductive HandsOut (policy : RetryPolicy) (t : Tally) : List DeliveredEvent → Tally → Prop where
  | nothing : HandsOut policy t [] t
  | lost : HandsOut policy t [] (t.atStage .gone)
  | out {d : DeliveredEvent} {k : Nat} (stage : t.stage.deliveries = some k)
      (number : d.deliveryCount = policy.reported (k + 1)) :
      HandsOut policy t [d] (t.atStage (.pending (k + 1)))

/-- Before the deliveries of the message are handled. -/
def Phase (policy : RetryPolicy) (t : Tally) : List DeliveredEvent → Prop
  | [] => Resting policy t
  | [d] => InHand policy t d.deliveryCount
  | _ => False

theorem HandsOut.phase {policy : RetryPolicy} {t t' : Tally} {deliveries : List DeliveredEvent}
    (h : HandsOut policy t deliveries t') (hresting : Resting policy t) :
    Phase policy t' deliveries := by
  cases h with
  | nothing => exact hresting
  | lost => exact hresting.lost
  | @out d k stage number =>
      have hhand := hresting.handedOut stage
      rw [← number] at hhand
      exact hhand

theorem HandsOut.counted {policy : RetryPolicy} {t t' : Tally}
    {deliveries : List DeliveredEvent} (h : HandsOut policy t deliveries t')
    (hcounted : ∀ k, t.stage = .pending k → 1 ≤ k) : ∀ k, t'.stage = .pending k → 1 ≤ k := by
  intro k hk
  cases h with
  | nothing => exact hcounted k hk
  | lost => cases hk
  | out stage number =>
      simp only [Tally.atStage, Stage.pending.injEq] at hk
      omega

section Runtime

variable {γ : Type} {ρ : γ → Type} {ω σ : Type}

/-- The program ends, if it ends, with `post`. -/
abbrev Program.Leads {α : Type} (m : Machine ρ ω BusError σ)
    (post : Except BusError α → σ → Prop) (program : Program ρ BusError α) (s : σ) : Prop :=
  program.Ensures m (fun _ => True) post s

/-- What a bus, its world and the dispatcher of the runtime do to one message. -/
structure Watched (m : Machine ρ ω BusError σ) (runtime : ConsumerRuntime ρ)
    (policy : RetryPolicy) (stream : String) (id : Nat) where
  tally : σ → Tally
  dispatch : ∀ d s, (runtime.dispatch d).Leads m
    (fun result s' => tally s' =
      if d.isOf stream id then (tally s).attempted result.isOk else tally s) s
  ack : ∀ d : DeliveredEvent, ∀ s, (runtime.bus.ack d.stream d.messageId).Leads m
    (fun _ s' => tally s' = if d.isOf stream id then (tally s).acked else tally s) s
  deadLetter : ∀ item s, (runtime.bus.deadLetter item).Leads m
    (fun _ s' => tally s' =
      if item.delivered.isOf stream id then (tally s).dropped else tally s) s
  record : ∀ record, runtime.onDeadLetter = some record → ∀ item s,
    (record item).Leads m (fun _ s' => tally s' = tally s) s
  collect : ∀ s, (∀ k, (tally s).stage = .pending k → 1 ≤ k) → runtime.collect.Leads m
    (fun result s' => ∀ batch, result = .ok batch →
      HandsOut policy (tally s) (batch.filter (·.isOf stream id)) (tally s')) s

namespace Watched

variable {m : Machine ρ ω BusError σ} {runtime : ConsumerRuntime ρ} {policy : RetryPolicy}
  {stream : String} {id : Nat} (w : Watched m runtime policy stream id)

/-- Nothing is claimed about the tally when the program raised. -/
def OnReturn {α : Type} (P : Tally → Prop) (result : Except BusError α) (s : σ) : Prop :=
  ∀ a, result = .ok a → P (w.tally s)

/-- The rejection of a delivery, for what it does to the tally. -/
theorem reject_leads (d : DeliveredEvent) (error : Option BusError) (s : σ)
    {P : Tally → Prop}
    (h : P (if d.isOf stream id then (w.tally s).dropped.acked else w.tally s)) :
    (runtime.reject d error).Leads m (w.OnReturn P) s := by
  apply Ensures.bind
  apply (w.deadLetter ⟨d, error⟩ s).mono (fun _ h => h)
  intro result s₁ hdropped
  cases result with
  | error e => exact fun _ hok => by cases hok
  | ok _ =>
  have hacked : ∀ s₂, w.tally s₂ = w.tally s₁ →
      (runtime.bus.ack d.stream d.messageId).Leads m (w.OnReturn P) s₂ := by
    intro s₂ hsame
    apply (w.ack d s₂).mono (fun _ h => h)
    intro result s₃ htally _ _
    rw [htally, hsame, hdropped]
    split at h
    case isTrue hof => simpa [hof] using h
    case isFalse hof => simpa [hof] using h
  cases hrecord : runtime.onDeadLetter with
  | none => exact hacked s₁ rfl
  | some record =>
      apply Ensures.bind
      apply (w.record record hrecord ⟨d, error⟩ s₁).mono (fun _ h => h)
      intro result s₂ hsame
      cases result with
      | error e => exact fun _ hok => by cases hok
      | ok _ => exact hacked s₂ hsame

theorem handle_other {d : DeliveredEvent} (hother : d.isOf stream id = false) (s : σ) :
    (runtime.handle d).Leads m (w.OnReturn (· = w.tally s)) s := by
  have hreject : ∀ error s₁, w.tally s₁ = w.tally s →
      (runtime.reject d error).Leads m (w.OnReturn (· = w.tally s)) s₁ := by
    intro error s₁ hsame
    apply w.reject_leads d error s₁
    rw [hother]
    exact hsame
  unfold ConsumerRuntime.handle
  split
  · exact hreject none s rfl
  · have hhandler : ∀ error s₁, w.tally s₁ = w.tally s →
        (if runtime.maxDelivery ≤ d.deliveryCount then runtime.reject d (some error)
          else pure ()).Leads m (w.OnReturn (· = w.tally s)) s₁ := by
      intro error s₁ hsame
      split
      · exact hreject (some error) s₁ hsame
      · exact fun _ _ => hsame
    apply Ensures.tryCatch
    apply Ensures.bind
    apply (w.dispatch d s).mono (fun _ h => h)
    intro result s₁ hsame
    rw [hother] at hsame
    cases result with
    | error e => exact hhandler e s₁ hsame
    | ok _ =>
        apply (w.ack d s₁).mono (fun _ h => h)
        intro result s₂ hacked
        rw [hother] at hacked
        cases result with
        | error e => exact hhandler e s₂ (hacked.trans hsame)
        | ok _ => exact fun _ _ => hacked.trans hsame

theorem handle_target (hlimit : runtime.maxDelivery = policy.limit) {d : DeliveredEvent}
    (hof : d.isOf stream id = true) {s : σ}
    (h : InHand policy (w.tally s) d.deliveryCount) :
    (runtime.handle d).Leads m (w.OnReturn (Resting policy)) s := by
  have hreject : ∀ error s₁, Resting policy (w.tally s₁).dropped.acked →
      (runtime.reject d error).Leads m (w.OnReturn (Resting policy)) s₁ := by
    intro error s₁ hresting
    apply w.reject_leads d error s₁
    rw [hof]
    exact hresting
  -- acknowledging does not matter for a message which was dispatched once with success
  have hacked : ∀ t : Tally, t.succeeded = true → (∀ k, t.stage = .pending k → 1 ≤ k) →
      Resting policy t.acked := by
    intro t hsuccess hstage
    apply Resting.of_succeeded
    · rw [Tally.acked_succeeded, hsuccess]
    · unfold Tally.acked
      split
      · exact fun _ hgone => by cases hgone
      · exact hstage
  unfold ConsumerRuntime.handle
  rw [hlimit]
  split
  case isTrue hbeyond =>
    apply hreject none s
    cases hsuccess : (w.tally s).succeeded with
    | false =>
        have hwithin := h.within hsuccess
        omega
    | true => exact hacked _ hsuccess fun _ hstage => h.pending hstage
  case isFalse =>
    have hhandler : ∀ error s₁ success, w.tally s₁ = (w.tally s).attempted success →
        (if policy.limit ≤ d.deliveryCount then runtime.reject d (some error)
          else pure ()).Leads m (w.OnReturn (Resting policy)) s₁ := by
      intro error s₁ success hattempted
      split
      case isTrue hlimit =>
        apply hreject (some error) s₁
        rw [hattempted]
        exact h.given_up hlimit success
      case isFalse hbelow =>
        intro _ _
        rw [hattempted]
        exact h.left (Or.inr (by omega))
    apply Ensures.tryCatch
    apply Ensures.bind
    apply (w.dispatch d s).mono (fun _ h => h)
    intro result s₁ hattempted
    rw [hof, if_pos rfl] at hattempted
    cases result with
    | error e => exact hhandler e s₁ false hattempted
    | ok _ =>
        have hsuccess : (w.tally s₁).succeeded = true := by
          rw [hattempted]
          simp [Tally.attempted, Except.isOk, Except.toBool]
        have hresting : Resting policy (w.tally s₁).acked := by
          apply hacked _ hsuccess
          rw [hattempted]
          exact fun _ hstage => h.pending hstage
        apply (w.ack d s₁).mono (fun _ h => h)
        intro result s₂ hack
        rw [hof, if_pos rfl] at hack
        rw [← hack] at hresting
        cases result with
        | ok _ => exact fun _ _ => hresting
        | error e =>
            change (if policy.limit ≤ d.deliveryCount then runtime.reject d (some e)
              else pure ()).Leads m (w.OnReturn (Resting policy)) s₂
            split
            · apply hreject (some e) s₂
              apply hacked
              · rw [hack]
                simp [Tally.dropped, hsuccess]
              · exact hresting.1
            · exact fun _ _ => hresting

/-- The deliveries of a batch, one after the other. -/
theorem handleAll_leads (hlimit : runtime.maxDelivery = policy.limit)
    (batch : List DeliveredEvent) {s : σ}
    (h : Phase policy (w.tally s) (batch.filter (·.isOf stream id))) :
    (runtime.handleAll batch).Leads m (w.OnReturn (Resting policy)) s := by
  induction batch generalizing s with
  | nil => exact fun _ _ => h
  | cons d rest ih =>
      have hrest : ∀ s₁, Phase policy (w.tally s₁) (rest.filter (·.isOf stream id)) →
          (do
            let handled ← runtime.handleAll rest
            return handled + 1 : Program ρ BusError Nat).Leads m
              (w.OnReturn (Resting policy)) s₁ := by
        intro s₁ hphase
        apply Ensures.bind
        apply (ih hphase).mono (fun _ h => h)
        intro result s₂ hresting
        cases result with
        | error e => exact fun _ hok => by cases hok
        | ok handled => exact fun _ _ => hresting handled rfl
      apply Ensures.bind
      cases hof : d.isOf stream id with
      | false =>
          rw [List.filter_cons_of_neg (by simp [hof])] at h
          apply (w.handle_other hof s).mono (fun _ h => h)
          intro result s₁ hsame
          cases result with
          | error e => exact fun _ hok => by cases hok
          | ok _ =>
              apply hrest s₁
              rw [hsame () rfl]
              exact h
      | true =>
          rw [List.filter_cons_of_pos hof] at h
          cases hlater : rest.filter (·.isOf stream id) with
          | cons other others =>
              rw [hlater] at h
              exact h.elim
          | nil =>
              rw [hlater] at h
              apply (w.handle_target hlimit hof h).mono (fun _ h => h)
              intro result s₁ hresting
              cases result with
              | error e => exact fun _ hok => by cases hok
              | ok _ =>
                  apply hrest s₁
                  rw [hlater]
                  exact hresting () rfl

/-- A poll which returns leaves the message at rest. -/
theorem runOnce_leads (hlimit : runtime.maxDelivery = policy.limit) {s : σ}
    (h : Resting policy (w.tally s)) :
    runtime.runOnce.Leads m (w.OnReturn (Resting policy)) s := by
  apply Ensures.bind
  apply (w.collect s h.1).mono (fun _ h => h)
  intro result s₁ hhands
  cases result with
  | error e => exact fun _ hok => by cases hok
  | ok batch => exact w.handleAll_leads hlimit batch ((hhands batch rfl).phase h)

end Watched

end Runtime

end CryptoWallet
