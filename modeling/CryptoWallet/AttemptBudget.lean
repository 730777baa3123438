import Mathlib.Order.Lattice
import Mathlib.Order.Nat
import Mathlib.Tactic.Common

/-!
# Attempts at one message of a queue

A queue hands a message out again until it is acknowledged, and says with each
delivery how often it was delivered, in a way of its own.  A consumer attempts
the message at each delivery; when an attempt fails and the queue reports at
least the limit, it gives the message up.

What matters is the delivery at which the reported number reaches the limit.
With that delivery the message is given up, after as many attempts.
-/

namespace CryptoWallet

/-- Where a message is: not handed out yet, handed out so many times and not
acknowledged, or out of reach of the consumers. -/
inductive Stage where
  | unread
  | pending (deliveries : Nat)
  | gone
  deriving DecidableEq

/-- The deliveries so far, of a message which can be handed out again. -/
def Stage.deliveries : Stage → Option Nat
  | unread => some 0
  | pending k => some k
  | gone => none

/-- What became of one message. -/
structure Tally where
  stage : Stage
  attempts : Nat
  givenUp : Nat
  succeeded : Bool
  deriving DecidableEq

namespace Tally

def atStage (t : Tally) (stage : Stage) : Tally := { t with stage }

def attempted (t : Tally) (success : Bool) : Tally :=
  { t with attempts := t.attempts + 1, succeeded := t.succeeded || success }

def dropped (t : Tally) : Tally := { t with givenUp := t.givenUp + 1 }

def acked (t : Tally) : Tally :=
  match t.stage with
  | .pending _ => t.atStage .gone
  | _ => t

@[simp] theorem acked_attempts (t : Tally) : t.acked.attempts = t.attempts := by
  unfold acked
  split <;> rfl

@[simp] theorem acked_givenUp (t : Tally) : t.acked.givenUp = t.givenUp := by
  unfold acked
  split <;> rfl

@[simp] theorem acked_succeeded (t : Tally) : t.acked.succeeded = t.succeeded := by
  unfold acked
  split <;> rfl

theorem acked_stage {t : Tally} {k : Nat} (h : t.stage = .pending k) :
    t.acked.stage = .gone := by
  simp [acked, h, atStage]

end Tally

/-- What a queue reports with the k-th delivery, the limit of the consumer, and the
delivery with which the limit is reached. -/
structure RetryPolicy where
  reported : Nat → Nat
  limit : Nat
  budget : Nat
  positive : 1 ≤ budget
  within : ∀ k, 1 ≤ k → k ≤ budget → reported k ≤ limit
  spent : ∀ k, 1 ≤ k → k ≤ budget → (limit ≤ reported k ↔ k = budget)

/-- A queue which counts the delivery it is making. -/
def RetryPolicy.counting (limit : Nat) (h : 1 ≤ limit) : RetryPolicy where
  reported k := k
  limit
  budget := limit
  positive := h
  within k _ hk := hk
  spent k _ hk := by omega

/-- A queue which counts the deliveries before a repeated one. -/
def RetryPolicy.countingBefore (limit : Nat) (h : 1 ≤ limit) : RetryPolicy where
  reported k := if k ≤ 1 then 1 else k - 1
  limit
  budget := if limit = 1 then 1 else limit + 1
  positive := by split <;> omega
  within k h₁ hk := by
    split at hk
    · rw [if_pos hk]
      exact h
    · split <;> omega
  spent k h₁ hk := by
    split at hk
    · rw [if_pos hk]
      split <;> omega
    · split <;> omega

section Policy

variable (policy : RetryPolicy)

/-- Nobody has the message in hand. -/
def Resting (t : Tally) : Prop :=
  (∀ k, t.stage = .pending k → 1 ≤ k) ∧
    (t.succeeded = true ∨
      match t.stage with
      | .unread => t.attempts = 0 ∧ t.givenUp = 0
      | .pending k => k < policy.budget ∧ t.attempts = k ∧ t.givenUp = 0
      | .gone => (t.attempts < policy.budget ∧ t.givenUp = 0) ∨
          (t.attempts = policy.budget ∧ t.givenUp = 1))

/-- The consumer has it in hand, with this reported number, and has not attempted it. -/
def InHand (t : Tally) (number : Nat) : Prop :=
  ∃ k, 1 ≤ k ∧ t.stage = .pending k ∧
    (t.succeeded = true ∨
      (k ≤ policy.budget ∧ number = policy.reported k ∧ t.attempts + 1 = k ∧ t.givenUp = 0))

/-- As many attempts as the budget, and the message is given up with the last one. -/
def Tally.Exactly (t : Tally) (budget : Nat) : Prop :=
  t.succeeded = true ∨ (t.attempts ≤ budget ∧ (0 < t.givenUp ↔ t.attempts = budget))

variable {policy} {t : Tally}

/-- Once an attempt succeeded the counts do not matter any more. -/
theorem Resting.of_succeeded (hsuccess : t.succeeded = true)
    (hstage : ∀ k, t.stage = .pending k → 1 ≤ k) : Resting policy t :=
  ⟨hstage, Or.inl hsuccess⟩

theorem Resting.exactly (h : Resting policy t) : t.Exactly policy.budget := by
  have hpositive := policy.positive
  apply h.2.imp (fun hsuccess => hsuccess)
  intro hcounts
  cases hstage : t.stage with
  | unread =>
      simp only [hstage] at hcounts
      omega
  | pending k =>
      simp only [hstage] at hcounts
      omega
  | gone =>
      simp only [hstage] at hcounts
      omega

/-- A message which is pending was attempted with every delivery. -/
theorem Resting.attempts_of_pending (h : Resting policy t) {k : Nat}
    (hstage : t.stage = .pending k) (hfailing : t.succeeded = false) :
    t.attempts = k ∧ t.givenUp = 0 := by
  rcases h.2 with hsuccess | hcounts
  · rw [hsuccess] at hfailing
    cases hfailing
  · simp only [hstage] at hcounts
    exact hcounts.2

/-- The message is out of reach before it was attempted often enough. -/
theorem Resting.lost (h : Resting policy t) : Resting policy (t.atStage .gone) := by
  have hpositive := policy.positive
  have hgone : ∀ k, (t.atStage .gone).stage = .pending k → 1 ≤ k := by
    simp [Tally.atStage]
  refine ⟨hgone, ?_⟩
  apply h.2.imp (fun hsuccess => hsuccess)
  intro hcounts
  cases hstage : t.stage with
  | unread =>
      simp only [hstage] at hcounts
      simp only [Tally.atStage]
      omega
  | pending k =>
      simp only [hstage] at hcounts
      simp only [Tally.atStage]
      omega
  | gone =>
      simp only [hstage] at hcounts
      simpa only [Tally.atStage] using hcounts

theorem Resting.handedOut (h : Resting policy t) {k : Nat}
    (hstage : t.stage.deliveries = some k) :
    InHand policy (t.atStage (.pending (k + 1))) (policy.reported (k + 1)) := by
  have hpositive := policy.positive
  refine ⟨k + 1, by omega, rfl, ?_⟩
  apply h.2.imp (fun hsuccess => hsuccess)
  intro hcounts
  cases hcase : t.stage with
  | unread =>
      simp only [hcase, Stage.deliveries, Option.some.injEq] at hstage hcounts
      subst hstage
      exact ⟨hpositive, rfl, by simpa [Tally.atStage] using hcounts.1, hcounts.2⟩
  | pending deliveries =>
      simp only [hcase, Stage.deliveries, Option.some.injEq] at hstage hcounts
      subst hstage
      exact ⟨by omega, rfl, by simpa [Tally.atStage] using hcounts.2.1, hcounts.2.2⟩
  | gone =>
      rw [hcase] at hstage
      cases hstage

theorem InHand.pending {number : Nat} (h : InHand policy t number) {k : Nat}
    (hstage : t.stage = .pending k) : 1 ≤ k := by
  obtain ⟨k', hk, hcase, _⟩ := h
  rw [hcase] at hstage
  cases hstage
  exact hk

/-- The reported number does not exceed the limit before the attempt. -/
theorem InHand.within {number : Nat} (h : InHand policy t number)
    (hfailing : t.succeeded = false) : number ≤ policy.limit := by
  obtain ⟨k, hk, _, hcounts⟩ := h
  rcases hcounts with hsuccess | ⟨hle, hnumber, _, _⟩
  · rw [hsuccess] at hfailing
    cases hfailing
  · rw [hnumber]
    exact policy.within k hk hle

/-- A failed attempt below the limit: the message is left for later. -/
theorem InHand.left {number : Nat} (h : InHand policy t number) {success : Bool}
    (hbelow : success = true ∨ number < policy.limit) :
    Resting policy (t.attempted success) := by
  obtain ⟨k, hk, hstage, hcounts⟩ := h
  have hcase : (t.attempted success).stage = .pending k := hstage
  refine ⟨?_, ?_⟩
  · intro other hother
    rw [hcase] at hother
    cases hother
    exact hk
  · simp only [hcase]
    rcases hcounts with hsuccess | ⟨hle, hnumber, hattempts, hgiven⟩
    · left
      simp [Tally.attempted, hsuccess]
    · rcases hbelow with hsuccess | hbelow
      · left
        simp [Tally.attempted, hsuccess]
      · right
        have hspent := policy.spent k hk hle
        simp only [Tally.attempted]
        omega

/-- A failed attempt at the limit: the message is given up and acknowledged. -/
theorem InHand.given_up {number : Nat} (h : InHand policy t number)
    (hlimit : policy.limit ≤ number) (success : Bool) :
    Resting policy (t.attempted success).dropped.acked := by
  obtain ⟨k, hk, hstage, hcounts⟩ := h
  have hgone : (t.attempted success).dropped.acked.stage = .gone :=
    Tally.acked_stage (k := k) hstage
  refine ⟨?_, ?_⟩
  · intro other hother
    rw [hgone] at hother
    cases hother
  · simp only [hgone, Tally.acked_succeeded, Tally.acked_attempts, Tally.acked_givenUp]
    rcases hcounts with hsuccess | ⟨hle, hnumber, hattempts, hgiven⟩
    · left
      simp [Tally.attempted, Tally.dropped, hsuccess]
    · right
      have hspent := policy.spent k hk hle
      simp only [Tally.attempted, Tally.dropped]
      omega

/-! ## Deliveries which are left -/

/-- How often a message is handed out from now on, if its attempts fail. -/
def RetryPolicy.left (policy : RetryPolicy) (deliveries : Nat) : Nat :=
  max 1 (policy.budget - deliveries)

def Stage.left (stage : Stage) (policy : RetryPolicy) : Nat :=
  match stage.deliveries with
  | some k => policy.left k
  | none => 0

theorem RetryPolicy.left_eq_one_iff (hmono : Monotone policy.reported) (k : Nat) :
    policy.left k = 1 ↔ policy.limit ≤ policy.reported (k + 1) := by
  have hpositive := policy.positive
  unfold left
  by_cases hwithin : k + 1 ≤ policy.budget
  · have hspent := policy.spent (k + 1) (by omega) hwithin
    omega
  · have hbudget := (policy.spent policy.budget hpositive le_rfl).mpr rfl
    have hreported := hmono (show policy.budget ≤ k + 1 by omega)
    have hreached : policy.limit ≤ policy.reported (k + 1) := hbudget.trans hreported
    refine ⟨fun _ => hreached, fun _ => ?_⟩
    omega

theorem RetryPolicy.left_succ (hmono : Monotone policy.reported) {k : Nat}
    (hbelow : policy.reported (k + 1) < policy.limit) :
    policy.left (k + 1) + 1 = policy.left k := by
  have hmore : policy.left k ≠ 1 := by
    rw [Ne, RetryPolicy.left_eq_one_iff hmono]
    omega
  unfold left at hmore ⊢
  omega

theorem RetryPolicy.countingBefore_mono (limit : Nat) (h : 1 ≤ limit) :
    Monotone (RetryPolicy.countingBefore limit h).reported := by
  intro k k' hle
  simp only [RetryPolicy.countingBefore]
  split <;> split <;> omega

theorem RetryPolicy.countingBefore_reported (limit : Nat) (h : 1 ≤ limit) (k : Nat) :
    1 ≤ (RetryPolicy.countingBefore limit h).reported k := by
  simp only [RetryPolicy.countingBefore]
  split <;> omega

/-- What became of a message in hand with this number. -/
def Tally.Handled (limit : Nat) (t : Tally) (number : Nat) (t' : Tally) : Prop :=
  t'.succeeded = true ∨
    if number < limit then t'.stage = t.stage ∧ t'.givenUp = t.givenUp
    else t'.stage = .gone ∧ t.givenUp < t'.givenUp

/-- A limit of zero is reached with the first delivery, like a limit of one. -/
theorem Tally.Handled.positive {limit number : Nat} {t' : Tally}
    (h : t.Handled limit number t') (hnumber : 1 ≤ number) :
    t.Handled (max 1 limit) number t' := by
  apply h.imp (fun hsuccess => hsuccess)
  intro hafter
  split at hafter
  case isTrue hbelow =>
    rw [if_pos (by omega)]
    exact hafter
  case isFalse hreached =>
    rw [if_neg (by omega)]
    exact hafter

/-- The message was handed out so often since `start`: it is within reach and the rest is
left, or it was given up with the last delivery, or it was lost before. -/
def Spent (policy : RetryPolicy) (start : Tally) (handed : Nat) (t : Tally) : Prop :=
  t.succeeded = true ∨
    (t.stage ≠ .gone ∧ handed + t.stage.left policy = start.stage.left policy ∧
      t.givenUp = start.givenUp) ∨
    (t.stage = .gone ∧ handed ≤ start.stage.left policy ∧
      (handed = start.stage.left policy → 0 < handed → start.givenUp < t.givenUp))

theorem Stage.left_of_deliveries {stage : Stage} {k : Nat} (h : stage.deliveries = some k) :
    stage.left policy = policy.left k := by
  unfold Stage.left
  rw [h]

theorem Stage.left_pos (policy : RetryPolicy) {stage : Stage} (h : stage ≠ .gone) :
    0 < stage.left policy := by
  cases stage with
  | gone => exact absurd rfl h
  | unread => exact Nat.lt_of_lt_of_le Nat.zero_lt_one (Nat.le_max_left _ _)
  | pending k => exact Nat.lt_of_lt_of_le Nat.zero_lt_one (Nat.le_max_left _ _)

theorem Spent.start (t : Tally) : Spent policy t 0 t := by
  cases hstage : t.stage with
  | gone => exact Or.inr (Or.inr ⟨hstage, Nat.zero_le _, fun _ hpositive => by omega⟩)
  | unread => exact Or.inr (Or.inl ⟨by simp [hstage], Nat.zero_add _, rfl⟩)
  | pending k => exact Or.inr (Or.inl ⟨by simp [hstage], Nat.zero_add _, rfl⟩)

theorem Spent.lost {start : Tally} {handed : Nat} (h : Spent policy start handed t) :
    Spent policy start handed (t.atStage .gone) := by
  apply h.imp (fun hsuccess => hsuccess)
  intro hcases
  right
  rcases hcases with ⟨hreach, hleft, hgiven⟩ | ⟨_, hle, hdropped⟩
  · have hpositive := Stage.left_pos policy hreach
    refine ⟨rfl, by omega, ?_⟩
    intro hall
    omega
  · exact ⟨rfl, hle, hdropped⟩

/-- A message is handed out once more and handled. -/
theorem Spent.handled (hmono : Monotone policy.reported) {start t' : Tally} {handed k : Nat}
    (h : Spent policy start handed t) (hstage : t.stage.deliveries = some k)
    (hsucceeded : t.succeeded = true → t'.succeeded = true)
    (hhandled : (t.atStage (.pending (k + 1))).Handled policy.limit
      (policy.reported (k + 1)) t') : Spent policy start (handed + 1) t' := by
  rcases h with hsuccess | ⟨hreach, hleft, hgiven⟩ | ⟨hgone, _⟩
  · exact Or.inl (hsucceeded hsuccess)
  · rw [Stage.left_of_deliveries hstage] at hleft
    apply hhandled.imp (fun hsuccess => hsuccess)
    intro hafter
    split at hafter
    case isTrue hbelow =>
      have hnext := RetryPolicy.left_succ hmono hbelow
      have hstage' : t'.stage.left policy = policy.left (k + 1) := by
        rw [hafter.1]
        rfl
      refine Or.inl ⟨by simp [hafter.1, Tally.atStage], by omega, ?_⟩
      rw [hafter.2]
      exact hgiven
    case isFalse hreached =>
      have hlast := (RetryPolicy.left_eq_one_iff hmono k).mpr (by omega)
      have hdropped : t.givenUp < t'.givenUp := hafter.2
      refine Or.inr ⟨hafter.1, by omega, ?_⟩
      intro _ _
      omega
  · rw [hgone] at hstage
    cases hstage

end Policy

end CryptoWallet
