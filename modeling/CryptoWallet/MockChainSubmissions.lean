import CryptoWallet.MockChainHistory

/-!
# What a transaction keeps of its submission

The columns written on submission are not written again, and no row is deleted.  So
the submissions of the node are those it had before a step, and the one which the
step makes.
-/

namespace CryptoWallet.MockChain

/-- The row as it was submitted. -/
def MockTx.submitted (tx : MockTx) : MockTx :=
  { tx with status := .pending, blockNumber := none, blockHash := none, logIndex := none }

def submissions (s : State) : List MockTx := s.transactions.rows.map MockTx.submitted

@[simp] theorem MockTx.submitted_hash (tx : MockTx) : tx.submitted.hash = tx.hash := rfl

theorem MockTx.IncludedAs.submitted_eq {tx tx' : MockTx} {block : MockBlock}
    (h : tx.IncludedAs block tx') : tx'.submitted = tx.submitted := by
  cases h <;> rfl

theorem mem_submissions {s : State} {tx : MockTx} (h : tx ∈ s.transactions.rows) :
    tx.submitted ∈ submissions s :=
  List.mem_map_of_mem h

/-- Overwriting a row by a version with the same submission. -/
theorem submissions_replace {s : State} {tx : MockTx} (h : tx.submitted ∈ submissions s) :
    (s.transactions.replace tx).rows.map MockTx.submitted = submissions s := by
  obtain ⟨old, hold, hsame⟩ := List.mem_map.mp h
  have hkept := s.transactions.replace_found (s.transactions.find?_of_mem hold)
  have hmapped : (s.transactions.replace tx).rows.map MockTx.submitted =
      (s.transactions.replace old).rows.map MockTx.submitted :=
    Table.replace_map_eq MockTx.submitted_hash rfl hsame.symm
  rw [hmapped, hkept]
  rfl

/-! ## Blocks -/

theorem includeTxs_submissions {block : MockBlock} {txs : List MockTx} {s s' : State}
    {logIndex : Nat} (htxs : ∀ tx ∈ txs, tx.submitted ∈ submissions s)
    (h : includeTxs block txs s logIndex = some s') : submissions s' = submissions s := by
  induction txs generalizing s logIndex with
  | nil =>
      simp only [includeTxs, Option.some.injEq] at h
      rw [h]
  | cons tx rest ih =>
      simp only [includeTxs] at h
      cases hfirst : includeTx block s logIndex tx with
      | none => simp [hfirst] at h
      | some result =>
          obtain ⟨mid, logIndex'⟩ := result
          simp only [hfirst] at h
          obtain ⟨tx', hincluded, _, htransactions, _⟩ := includeTx_cases hfirst
          have hmid : submissions mid = submissions s := by
            have htx := htxs tx List.mem_cons_self
            rw [← hincluded.submitted_eq] at htx
            unfold submissions
            rw [htransactions]
            exact submissions_replace htx
          rw [← hmid]
          apply ih _ h
          intro r hr
          rw [hmid]
          exact htxs r (List.mem_cons_of_mem tx hr)

theorem mineBlock_submissions {config : Config} {draw : Uuid} {s s' : State}
    (h : mineBlock config draw s = some s') : submissions s' = submissions s := by
  unfold mineBlock at h
  cases hinsert : s.blocks.insert? (nextBlock config draw s) with
  | none => simp [hinsert] at h
  | some blocks =>
      simp only [hinsert] at h
      have hpending : ∀ tx ∈ pendingTxs s,
          tx.submitted ∈ submissions { s with blocks } :=
        fun tx htx => mem_submissions (s := s) (pendingTxs_mem htx).1
      exact includeTxs_submissions (s := { s with blocks }) hpending h

theorem orphanBlock_submissions {config : Config} {drop : List String} {s s' : State}
    {block : MockBlock} (hs : Consistent s)
    (h : orphanBlock config drop s block = some s') : submissions s' = submissions s := by
  obtain ⟨_, _, hrows⟩ := orphanBlock_cases hs.balances h
  unfold submissions
  rw [hrows, List.map_map]
  apply List.map_congr_left
  intro tx _
  simp only [Function.comp]
  split <;> rfl

/-! ## Submitting -/

/-- The node answers with an error, knows the transaction, or takes it. -/
inductive Submitted (config : Config) (isMint : Bool) (request : SendRequest) (s : State) :
    Except ChainError ChainHash → State → Prop where
  | refused (e : ChainError) : Submitted config isMint request s (.error e) s
  | known (tx : MockTx) (hmem : tx ∈ s.transactions.rows)
      (hhash : tx.hash = txHashOf config request.clientRef) :
      Submitted config isMint request s (.ok (txHashOf config request.clientRef)) s
  | taken (tx : MockTx) (hhash : tx.hash = txHashOf config request.clientRef)
      (hsubmitted : tx.submitted = tx) (hmint : tx.isMint = isMint)
      (hfrom : varchar 64 request.fromAddress = .ok tx.fromAddress)
      (hasset : tx.asset = config.asset) (hamount : 0 < tx.amount ∧ tx.amount < 10 ^ 78)
      (transactions : Table ChainHash MockTx MockTx.hash)
      (hinsert : s.transactions.insert? tx = some transactions) :
      Submitted config isMint request s
        (.ok (txHashOf config request.clientRef)) { s with transactions }

theorem submit_submitted (config : Config) (isMint : Bool) (request : SendRequest)
    (s : State) :
    Submitted config isMint request s (submit config isMint request s).1
      (submit config isMint request s).2 := by
  unfold submit
  split
  next => exact .refused _
  next hpositive =>
    split
    next e _ => exact .refused e
    next =>
      split
      next fromAddress toAddress hfrom _ =>
        split
        next hfits =>
          dsimp only
          cases hinsert : s.transactions.insert? _ with
          | none =>
              have hsome := (s.transactions.insert?_eq_none_iff _).mp hinsert
              obtain ⟨tx, htx⟩ := Option.isSome_iff_exists.mp hsome
              exact .known tx (Table.mem_of_find? htx) (Table.key_of_find? htx)
          | some transactions =>
              exact .taken _ rfl rfl rfl hfrom rfl ⟨by dsimp only; omega, hfits⟩ transactions
                hinsert
        next => exact .refused _
      next => exact .refused _

/-- The submission which a step makes. -/
def ChainStep.request : ChainStep → Option (Bool × SendRequest)
  | .simulateDeposit toAddress amount clientRef =>
    some (true, ⟨externalSourceAddress, toAddress, amount, clientRef⟩)
  | .sendTransfer request => some (false, request)
  | _ => none

theorem chainStep_submit (config : Config) (s : State) {step : ChainStep} {isMint : Bool}
    {request : SendRequest} (h : step.request = some (isMint, request)) :
    chainStep config step s = (submit config isMint request s).2 := by
  cases step with
  | simulateDeposit toAddress amount clientRef =>
      cases h
      rfl
  | sendTransfer request =>
      cases h
      rfl
  | ensureStarted => cases h
  | tick now => cases h
  | mineBlock draw => cases h
  | orphan depth drop => cases h
  | setFaults rpcAvailable haltMining failNextTransfers => cases h

/-- A step which submits nothing keeps the submissions. -/
theorem chainStep_submissions (config : Config) {s : State} (hs : Consistent s)
    {step : ChainStep} (hstep : step.request = none) :
    submissions (chainStep config step s) = submissions s := by
  cases step with
  | ensureStarted =>
      simp only [chainStep]
      unfold ensureStarted
      split <;> rfl
  | tick now => rfl
  | mineBlock draw =>
      simp only [chainStep]
      cases hmine : mineBlock config draw s with
      | none => rfl
      | some s' => exact mineBlock_submissions hmine
  | orphan depth drop =>
      simp only [chainStep]
      cases horphan : orphanTop config depth drop s with
      | none => rfl
      | some s' =>
          have hkept := orphanTop_induction (P := fun s' => submissions s' = submissions s) hs
            rfl (fun _ _ _ hs₁ h₁ _ _ hblock => (orphanBlock_submissions hs₁ hblock).trans h₁)
            horphan
          exact hkept.2
  | setFaults rpcAvailable haltMining failNextTransfers => rfl
  | simulateDeposit toAddress amount clientRef => cases hstep
  | sendTransfer request => cases hstep

/-! ## Log indices -/

/-- The column of the service holds the index. -/
def LogIndicesFit (s : State) : Prop :=
  ∀ tx ∈ s.transactions.rows, ∀ logIndex, tx.logIndex = some logIndex →
    logIndex < maxTxsPerBlock

theorem includeTx_logIndex {block : MockBlock} {s s' : State} {logIndex logIndex' : Nat}
    {tx : MockTx} (h : includeTx block s logIndex tx = some (s', logIndex')) :
    logIndex' ≤ logIndex + 1 ∧ ∀ r ∈ s'.transactions.rows,
      r ∈ s.transactions.rows ∨ r.logIndex = none ∨ r.logIndex = some logIndex := by
  unfold includeTx at h
  cases hreverts : reverts s tx with
  | mk reverted faults =>
      simp only [hreverts] at h
      cases reverted with
      | true =>
          simp only [if_true, Option.some.injEq, Prod.mk.injEq] at h
          obtain ⟨rfl, rfl⟩ := h
          refine ⟨by omega, ?_⟩
          intro r hr
          rw [saveTx_transactions, Table.replace_rows] at hr
          obtain ⟨old, hold, rfl⟩ := List.mem_map.mp hr
          split
          · exact Or.inr (Or.inl rfl)
          · exact Or.inl hold
      | false =>
          simp only [Bool.false_eq_true, if_false, Option.map_eq_some_iff,
            Prod.mk.injEq] at h
          obtain ⟨mid, happly, rfl, rfl⟩ := h
          refine ⟨le_rfl, ?_⟩
          intro r hr
          rw [saveTx_transactions, (applyBalances_moved happly).transactions,
            Table.replace_rows] at hr
          obtain ⟨old, hold, rfl⟩ := List.mem_map.mp hr
          split
          · exact Or.inr (Or.inr rfl)
          · exact Or.inl hold

theorem includeTxs_logIndicesFit {block : MockBlock} {txs : List MockTx} {s s' : State}
    {logIndex : Nat} (hs : LogIndicesFit s) (hroom : logIndex + txs.length ≤ maxTxsPerBlock)
    (h : includeTxs block txs s logIndex = some s') : LogIndicesFit s' := by
  induction txs generalizing s logIndex with
  | nil =>
      simp only [includeTxs, Option.some.injEq] at h
      exact h ▸ hs
  | cons tx rest ih =>
      rw [List.length_cons] at hroom
      simp only [includeTxs] at h
      cases hfirst : includeTx block s logIndex tx with
      | none => simp [hfirst] at h
      | some result =>
          obtain ⟨mid, logIndex'⟩ := result
          simp only [hfirst] at h
          obtain ⟨hnext, hrows⟩ := includeTx_logIndex hfirst
          refine ih ?_ (by omega) h
          intro r hr index hindex
          rcases hrows r hr with hold | hnone | hsome
          · exact hs r hold index hindex
          · rw [hnone] at hindex
            cases hindex
          · rw [hsome] at hindex
            cases hindex
            omega

theorem mineBlock_logIndicesFit {config : Config} {draw : Uuid} {s s' : State}
    (hs : LogIndicesFit s) (h : mineBlock config draw s = some s') : LogIndicesFit s' := by
  unfold mineBlock at h
  cases hinsert : s.blocks.insert? (nextBlock config draw s) with
  | none => simp [hinsert] at h
  | some blocks =>
      simp only [hinsert] at h
      have hlength : (pendingTxs s).length ≤ maxTxsPerBlock := by
        unfold pendingTxs
        split
        · exact Nat.zero_le _
        · exact List.length_take_le _ _
      exact includeTxs_logIndicesFit (s := { s with blocks }) hs (by omega) h

theorem chainStep_logIndicesFit (config : Config) {s : State} (hconsistent : Consistent s)
    (hs : LogIndicesFit s) (step : ChainStep) : LogIndicesFit (chainStep config step s) := by
  have hsubmit : ∀ isMint request, LogIndicesFit (submit config isMint request s).2 := by
    intro isMint request
    have hsubmit := submit_submitted config isMint request s
    generalize submit config isMint request s = result at hsubmit ⊢
    obtain ⟨answer, s'⟩ := result
    cases hsubmit with
    | refused e => exact hs
    | known tx hmem hhash => exact hs
    | taken tx hhash hsubmitted hmint hfrom hasset hamount transactions hinsert =>
        intro r hr logIndex hindex
        rcases (Table.mem_insert? hinsert).mp hr with hold | rfl
        · exact hs r hold logIndex hindex
        · rw [← hsubmitted] at hindex
          cases hindex
  cases step with
  | ensureStarted =>
      simp only [chainStep]
      unfold ensureStarted
      split <;> exact hs
  | tick now => exact hs
  | mineBlock draw =>
      simp only [chainStep]
      cases hmine : mineBlock config draw s with
      | none => exact hs
      | some s' => exact mineBlock_logIndicesFit hs hmine
  | orphan depth drop =>
      simp only [chainStep]
      cases horphan : orphanTop config depth drop s with
      | none => exact hs
      | some s' =>
          refine (orphanTop_induction (P := LogIndicesFit) hconsistent hs ?_ horphan).2
          intro s₁ s₂ block hs₁ hfit _ _ hblock r hr logIndex hindex
          obtain ⟨_, _, hrows⟩ := orphanBlock_cases hs₁.balances hblock
          rw [hrows] at hr
          obtain ⟨old, hold, rfl⟩ := List.mem_map.mp hr
          split at hindex
          · cases hindex
          · exact hfit old hold logIndex hindex
  | setFaults rpcAvailable haltMining failNextTransfers => exact hs
  | simulateDeposit toAddress amount clientRef => exact hsubmit _ _
  | sendTransfer request => exact hsubmit _ _

end CryptoWallet.MockChain
