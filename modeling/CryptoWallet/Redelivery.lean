import CryptoWallet.Transaction

/-!
# At-least-once delivery

A consumer handles deliveries one after another; each returns or raises.  Two
deliveries may carry the same fact.  A fact is absorbed when handling it again
changes nothing any more.  If every fact is absorbed once it has been handled,
and stays so, then a run is equivalent to the run without the repeats: the
deliveries of a fact after the first one which returned.
-/

namespace CryptoWallet.Redelivery

variable {σ τ : Type}

/-- A consumer with its notion of equal facts. -/
structure Consumer (σ τ : Type) where
  step : τ → σ → σ
  returns : τ → σ → Bool
  sameFact : τ → τ → Bool

namespace Consumer

variable (consumer : Consumer σ τ)

/-- Drop every delivery of a fact after its first one which returned; `handled`
holds the deliveries which returned so far. -/
def withoutRepeats (handled : List τ) (s : σ) : List τ → List τ
  | [] => []
  | d :: rest =>
    if handled.any (consumer.sameFact · d) then
      withoutRepeats handled (consumer.step d s) rest
    else if consumer.returns d s then
      d :: withoutRepeats (d :: handled) (consumer.step d s) rest
    else d :: withoutRepeats handled (consumer.step d s) rest

/-- What makes repeats harmless: a relation between the states of two runs and
a predicate which says that a delivery has no effect any more. -/
structure Absorbing (related : σ → σ → Prop) (absorbed : σ → τ → Prop)
    (admitted : τ → Prop) : Prop where
  idle : ∀ s s' d, admitted d → related s s' → absorbed s d →
    related (consumer.step d s) s' ∧
      related (consumer.step d s) (consumer.step d s')
  agree : ∀ s s' d, admitted d → related s s' → ¬absorbed s d →
    related (consumer.step d s) (consumer.step d s')
  after : ∀ s s' d, admitted d → related s s' → consumer.returns d s = true →
    absorbed (consumer.step d s) d
  stays : ∀ s s' d d', admitted d → admitted d' → related s s' → absorbed s d' →
    absorbed (consumer.step d s) d'
  fact : ∀ s d d', consumer.sameFact d d' = true → absorbed s d → absorbed s d'

variable {consumer} {related : σ → σ → Prop} {absorbed : σ → τ → Prop}
  {admitted : τ → Prop}

/-- A run is related to the run without its repeats. -/
theorem Absorbing.run (h : consumer.Absorbing related absorbed admitted)
    {s s' : σ} (hrelated : related s s') {handled : List τ}
    (hhandled : ∀ d ∈ handled, admitted d ∧ absorbed s d) {deliveries : List τ}
    (hadmitted : ∀ d ∈ deliveries, admitted d) :
    related (runSteps consumer.step s deliveries)
      (runSteps consumer.step s'
        (consumer.withoutRepeats handled s deliveries)) := by
  induction deliveries generalizing s s' handled with
  | nil => exact hrelated
  | cons d rest ih =>
      have hd := hadmitted d List.mem_cons_self
      have hrest : ∀ d' ∈ rest, admitted d' :=
        fun d' hd' => hadmitted d' (List.mem_cons_of_mem d hd')
      have hstays : ∀ d' ∈ handled, admitted d' ∧ absorbed (consumer.step d s) d' :=
        fun d' hd' => ⟨(hhandled d' hd').1,
          h.stays s s' d d' hd (hhandled d' hd').1 hrelated (hhandled d' hd').2⟩
      have hboth : related (consumer.step d s) (consumer.step d s') := by
        by_cases habsorbed : absorbed s d
        · exact (h.idle s s' d hd hrelated habsorbed).2
        · exact h.agree s s' d hd hrelated habsorbed
      rw [runSteps_cons, withoutRepeats]
      split
      next hrepeat =>
        obtain ⟨d', hd', hsame⟩ := List.any_eq_true.mp hrepeat
        have habsorbed := h.fact s d' d hsame (hhandled d' hd').2
        exact ih (h.idle s s' d hd hrelated habsorbed).1 hstays hrest
      next =>
        split
        next hreturns =>
          rw [runSteps_cons]
          apply ih hboth ?_ hrest
          intro d' hd'
          rcases List.mem_cons.mp hd' with rfl | hd'
          · exact ⟨hd, h.after s s' d' hd hrelated hreturns⟩
          · exact hstays d' hd'
        next =>
          rw [runSteps_cons]
          exact ih hboth hstays hrest

end Consumer
end CryptoWallet.Redelivery
