import CryptoWallet.MockChainSubmissions
import CryptoWallet.Platform
import CryptoWallet.Solvency

/-!
# The tokens behind the balances

A transfer goes from the address of one wallet to that of another, so the tokens which
come to the wallets stay with them.  What the users have and what their addresses hold
differ by the deposits which were posted and the tokens which were minted, however the
transfers fare.
-/

namespace CryptoWallet

namespace MockChain

/-! ## Sums over addresses -/

/-- The tokens which mints have brought to the addresses. -/
def mintedTo (s : State) (addresses : Finset String) : Int :=
  s.transactions.total fun tx =>
    if tx.status = .mined ∧ tx.isMint = true ∧ tx.toAddress.val ∈ addresses then tx.amount
    else 0

/-- The tokens which have left the address. -/
def spentFrom (s : State) (address : String) : Int :=
  s.transactions.total fun tx => if tx.status = .mined then tx.sent address else 0

/-- Nothing is sent to or from other addresses. -/
def Closed (s : State) (addresses : Finset String) : Prop :=
  ∀ tx ∈ s.transactions.rows, tx.isMint = false →
    tx.fromAddress.val ∈ addresses ∧ tx.toAddress.val ∈ addresses

theorem MockTx.sum_effect {tx : MockTx} {addresses : Finset String}
    (h : tx.isMint = false → tx.fromAddress.val ∈ addresses ∧ tx.toAddress.val ∈ addresses) :
    ∑ address ∈ addresses, tx.effect address =
      if tx.isMint = true ∧ tx.toAddress.val ∈ addresses then (tx.amount : Int) else 0 := by
  have hreceived : ∑ address ∈ addresses, tx.received address =
      if tx.toAddress.val ∈ addresses then (tx.amount : Int) else 0 :=
    Finset.sum_ite_eq addresses tx.toAddress.val fun _ => (tx.amount : Int)
  have hsent : ∑ address ∈ addresses, tx.sent address =
      if tx.isMint = false ∧ tx.fromAddress.val ∈ addresses then (tx.amount : Int) else 0 := by
    cases hmint : tx.isMint with
    | true => simp [MockTx.sent, hmint]
    | false =>
        simp only [MockTx.sent, hmint, true_and]
        exact Finset.sum_ite_eq addresses tx.fromAddress.val fun _ => (tx.amount : Int)
  simp only [MockTx.effect]
  rw [Finset.sum_sub_distrib, hreceived, hsent]
  cases hmint : tx.isMint with
  | true => simp
  | false =>
      obtain ⟨hfrom, hto⟩ := h hmint
      simp [hfrom, hto]

/-- What a closed set of addresses holds was minted to it. -/
theorem Consistent.sum_balances {s : State} (h : Consistent s) {addresses : Finset String}
    (hclosed : Closed s addresses) :
    ∑ address ∈ addresses, balanceOf s address = mintedTo s addresses := by
  have hreplay : ∑ address ∈ addresses, balanceOf s address =
      ∑ address ∈ addresses, s.transactions.total fun tx =>
        if tx.status = .mined then tx.effect address else 0 :=
    Finset.sum_congr rfl fun address _ => h.balances address
  rw [hreplay, Table.sum_total, mintedTo, Table.total, Table.total]
  congr 1
  apply List.map_congr_left
  intro tx htx
  by_cases hmined : tx.status = .mined
  · simp only [hmined, if_true, true_and]
    exact MockTx.sum_effect (hclosed tx htx)
  · simp [hmined]

/-! ## Requests -/

/-- The row carries out the request. -/
structure MockTx.CarriesOut (config : Config) (request : SendRequest) (tx : MockTx) : Prop where
  hash : tx.hash = txHashOf config request.clientRef
  fromAddress : tx.fromAddress.val = request.fromAddress
  toAddress : tx.toAddress.val = request.toAddress
  amount : (tx.amount : Int) = request.amount

theorem submit_carriesOut {config : Config} {isMint : Bool} {request : SendRequest}
    (hfrom : request.fromAddress.length ≤ 64) (hto : request.toAddress.length ≤ 64)
    {s : State} {tx : MockTx}
    (htx : tx ∈ (submit config isMint request s).2.transactions.rows) :
    tx ∈ s.transactions.rows ∨ (tx.isMint = isMint ∧ tx.CarriesOut config request) := by
  unfold submit at htx
  split at htx
  next => exact Or.inl htx
  next hpositive =>
    split at htx
    next => exact Or.inl htx
    next =>
      split at htx
      next fromAddress toAddress hstored hstored' =>
        split at htx
        next =>
          dsimp only at htx
          cases hinsert : s.transactions.insert? _ with
          | none =>
              rw [hinsert] at htx
              exact Or.inl htx
          | some transactions =>
              rw [hinsert, Option.getD_some] at htx
              rcases (Table.mem_insert? hinsert).mp htx with hold | rfl
              · exact Or.inl hold
              · exact Or.inr ⟨rfl, rfl, varchar_eq hfrom hstored, varchar_eq hto hstored',
                  Int.natAbs_of_nonneg (by omega)⟩
        next => exact Or.inl htx
      next => exact Or.inl htx

theorem submit_isMint {config : Config} {isMint : Bool} {request : SendRequest} {s : State}
    {tx : MockTx} (htx : tx ∈ (submit config isMint request s).2.transactions.rows) :
    tx ∈ s.transactions.rows ∨ tx.isMint = isMint := by
  have hsubmitted := submit_submitted config isMint request s
  generalize submit config isMint request s = result at hsubmitted htx
  obtain ⟨answer, s'⟩ := result
  cases hsubmitted with
  | refused e => exact Or.inl htx
  | known old hmem hhash => exact Or.inl htx
  | taken new hhash hnew hmint hfrom hasset hamount transactions hinsert =>
      rcases (Table.mem_insert? hinsert).mp htx with hold | rfl
      · exact Or.inl hold
      · exact Or.inr hmint

theorem MockTx.CarriesOut.same {config : Config} {request : SendRequest} {tx tx' : MockTx}
    (h : tx.CarriesOut config request) (hsame : tx.submitted = tx'.submitted) :
    tx'.CarriesOut config request where
  hash := (congrArg MockTx.hash hsame).symm.trans h.hash
  fromAddress := by
    rw [← h.fromAddress]
    exact congrArg (·.fromAddress.val) hsame.symm
  toAddress := by
    rw [← h.toAddress]
    exact congrArg (·.toAddress.val) hsame.symm
  amount := by
    rw [← h.amount]
    exact congrArg (fun tx => (tx.amount : Int)) hsame.symm

end MockChain

/-! ## The services and their node -/

open MockChain (ChainStep MockTx)
open Wallet (Transfer)

def MockChain.ChainStep.sends : ChainStep → Bool
  | .sendTransfer _ => true
  | _ => false

/-- The two services, and the simulated chain they talk to. -/
structure TokenWorld where
  platform : Platform
  chain : MockChain.State

/-- The node is sent what the broadcaster is at, and whether the answer arrives is up to
the steps of the platform. -/
inductive TokenStep where
  | platform (action : PlatformStep MockChain.State)
  | send
  | chain (s : { s : ChainStep // s.sends = false })

namespace TokenWorld

def start : TokenWorld := ⟨.start, .empty⟩

variable (node : MockChain.Config) (settings : Blockchain.Settings) (config : Wallet.Config)

def step (action : TokenStep) (w : TokenWorld) : TokenWorld :=
  match action with
  | .platform action =>
    { w with platform :=
        Platform.step (MockChain.adapter node) settings config action w.platform }
  | .send =>
    match w.platform.service.claimed with
    | [] => w
    | row :: _ => { w with chain := (MockChain.submit node false row.sendRequest w.chain).2 }
  | .chain s => { w with chain := MockChain.chainStep node s.val w.chain }

/-- The addresses of the wallets. -/
def addresses (w : TokenWorld) : Finset String :=
  (w.platform.wallet.wallets.rows.map (·.address)).toFinset

/-- The transaction carries out the transfer. -/
def Sent (node : MockChain.Config) (w : TokenWorld) (tx : MockTx) : Prop :=
  ∃ t ∈ w.platform.wallet.transfers.rows,
    tx.CarriesOut node ⟨t.fromAddress, t.toAddress, t.amount.toNat, t.id.str⟩

/-- What is on the chain was minted, or is a transfer of the wallet. -/
structure Inv (node : MockChain.Config) (w : TokenWorld) : Prop where
  platform : w.platform.Inv
  consistent : MockChain.Consistent w.chain
  sent : ∀ tx ∈ w.chain.transactions.rows, tx.isMint = false → Sent node w tx

variable {node : MockChain.Config} {settings : Blockchain.Settings} {config : Wallet.Config}
  {w : TokenWorld}

theorem Inv.start : Inv node .start where
  platform := .start
  consistent := MockChain.empty_consistent
  sent := by simp [TokenWorld.start, MockChain.State.empty]

theorem Sent.same {tx tx' : MockTx} (h : Sent node w tx)
    (hsame : tx.submitted = tx'.submitted) : Sent node w tx' := by
  obtain ⟨t, ht, hcarries⟩ := h
  exact ⟨t, ht, hcarries.same hsame⟩

theorem Sent.platform {tx : MockTx} (h : Sent node w tx) {platform : Platform}
    (hgrows : Wallet.Grows w.platform.wallet platform.wallet) :
    Sent node { w with platform } tx := by
  obtain ⟨t, ht, hcarries⟩ := h
  obtain ⟨t', ht', hforward⟩ := hgrows t ht
  have hterms := hforward.terms
  refine ⟨t', ht', ?_⟩
  rw [hterms.id, hterms.fromAddress, hterms.toAddress, hterms.amount]
  exact hcarries

/-- A step of the node which takes nothing from the services. -/
theorem Inv.chain (h : Inv node w) {s : ChainStep} (hs : s.sends = false) :
    Inv node { w with chain := MockChain.chainStep node s w.chain } := by
  refine ⟨h.platform, MockChain.chainStep_consistent node w.chain s h.consistent, ?_⟩
  intro tx htx hmint
  cases hrequest : s.request with
  | none =>
      have hsubmitted := MockChain.mem_submissions htx
      rw [MockChain.chainStep_submissions node h.consistent hrequest] at hsubmitted
      obtain ⟨old, hold, hsame⟩ := List.mem_map.mp hsubmitted
      have hmint' : old.isMint = false := (congrArg MockTx.isMint hsame).trans hmint
      exact (h.sent old hold hmint').same hsame
  | some submission =>
      obtain ⟨isMint, request⟩ := submission
      rw [MockChain.chainStep_submit node w.chain hrequest] at htx
      rcases MockChain.submit_isMint htx with hold | hnew
      · exact h.sent tx hold hmint
      · have hminted : isMint = true := by
          cases s with
          | simulateDeposit toAddress amount clientRef =>
              cases hrequest
              rfl
          | sendTransfer request => cases hs
          | ensureStarted => cases hrequest
          | tick now => cases hrequest
          | mineBlock draw => cases hrequest
          | orphan depth drop => cases hrequest
          | setFaults rpcAvailable haltMining failNextTransfers => cases hrequest
        rw [hmint, hminted] at hnew
        cases hnew

/-- What the broadcaster is at is a transfer. -/
theorem Inv.send (h : Inv node w) {row : Blockchain.OutgoingTransaction}
    (hrow : row ∈ w.platform.service.claimed) :
    Inv node { w with
      chain := (MockChain.submit node false row.sendRequest w.chain).2 } := by
  refine ⟨h.platform, MockChain.submit_consistent h.consistent, ?_⟩
  intro tx htx hmint
  have hcarries := MockChain.submit_carriesOut row.fromAddress.property.1
    row.toAddress.property.1 htx
  rcases hcarries with hold | ⟨_, hcarries⟩
  · exact h.sent tx hold hmint
  · obtain ⟨hfind, _⟩ := h.platform.orderly.claimed row hrow
    obtain ⟨t, ht, horders⟩ := h.platform.orders row (Table.mem_of_find? hfind)
    rw [horders.sendRequest] at hcarries
    exact ⟨t, ht, hcarries⟩

theorem Inv.step (h : Inv node w) (action : TokenStep) :
    Inv node (step node settings config action w) := by
  cases action with
  | platform action =>
      refine ⟨h.platform.step action, h.consistent, ?_⟩
      intro tx htx hmint
      exact (h.sent tx htx hmint).platform (h.platform.step_grows action)
  | send =>
      simp only [TokenWorld.step]
      cases hclaimed : w.platform.service.claimed with
      | nil => exact h
      | cons row rest =>
          apply h.send
          rw [hclaimed]
          exact List.mem_cons_self
  | chain s => exact h.chain s.property

theorem run_inv (steps : List TokenStep) :
    Inv node (runSteps (step node settings config) .start steps) :=
  runSteps_preserves (I := Inv node) (fun _ action h => h.step action) .start steps

/-! ## Tokens and balances -/

theorem Inv.closed (h : Inv node w) : MockChain.Closed w.chain w.addresses := by
  intro tx htx hmint
  obtain ⟨t, ht, hcarries⟩ := h.sent tx htx hmint
  obtain ⟨sender, hsender, recipient, hrecipient, _, hfrom, _, hto⟩ :=
    h.platform.placed.addressed t ht
  rw [hcarries.fromAddress, hcarries.toAddress, ← hfrom, ← hto]
  exact ⟨List.mem_toFinset.mpr (List.mem_map_of_mem hsender),
    List.mem_toFinset.mpr (List.mem_map_of_mem hrecipient)⟩

/-- In every run, the addresses of the wallets hold what was minted to them, and what the
users have differs from it as the deposits which were posted do. -/
theorem reserves_follow_deposits (steps : List TokenStep) :
    let w := runSteps (step node settings config) .start steps
    ∑ address ∈ w.addresses, MockChain.balanceOf w.chain address =
        MockChain.mintedTo w.chain w.addresses ∧
      w.platform.wallet.balances.total Wallet.Balance.posted -
          ∑ address ∈ w.addresses, MockChain.balanceOf w.chain address =
        w.platform.wallet.depositTotal - MockChain.mintedTo w.chain w.addresses := by
  intro w
  have hinv : Inv node w := run_inv steps
  have htokens := hinv.consistent.sum_balances hinv.closed
  refine ⟨htokens, ?_⟩
  rw [htokens, hinv.platform.sound.total_eq]

/-- Each transaction carries out a transfer which no other transaction carries out. -/
def PaidOnce (node : MockChain.Config) (w : TokenWorld) : Prop :=
  ∀ tx ∈ w.chain.transactions.rows, tx.isMint = false →
    ∃ t ∈ w.platform.wallet.transfers.rows,
      tx.CarriesOut node ⟨t.fromAddress, t.toAddress, t.amount.toNat, t.id.str⟩ ∧
      ∀ tx' ∈ w.chain.transactions.rows,
        tx'.CarriesOut node ⟨t.fromAddress, t.toAddress, t.amount.toNat, t.id.str⟩ → tx' = tx

theorem Inv.paidOnce (h : Inv node w) : w.PaidOnce node := by
  intro tx htx hmint
  obtain ⟨t, ht, hcarries⟩ := h.sent tx htx hmint
  refine ⟨t, ht, hcarries, ?_⟩
  intro tx' htx' hcarries'
  have hhash : tx'.hash = tx.hash := hcarries'.hash.trans hcarries.hash.symm
  exact w.chain.transactions.eq_of_mem_of_key_eq htx' htx hhash

/-- In every run, distinct transactions pay distinct transfers, and what has left an address
is covered by the transfers from it. -/
theorem spending_is_ordered (steps : List TokenStep) (address : String) :
    let w := runSteps (step node settings config) .start steps
    w.PaidOnce node ∧
      MockChain.spentFrom w.chain address ≤
        w.platform.wallet.transfers.total fun t =>
          if t.fromAddress = address then t.amount else 0 := by
  intro w
  have hinv : Inv node w := run_inv steps
  refine ⟨hinv.paidOnce, ?_⟩
  apply Table.total_le_total fun t => MockChain.txHashOf node t.id.str
  · intro t
    have hamount := t.amountPositive
    split <;> omega
  · intro tx htx hspent
    by_cases hmined : tx.status = .mined
    · rw [if_pos hmined] at hspent ⊢
      unfold MockChain.MockTx.sent at hspent ⊢
      split at hspent
      next hsends =>
        obtain ⟨t, ht, hcarries⟩ := hinv.sent tx htx hsends.1
        refine ⟨t, ht, hcarries.hash.symm, ?_⟩
        have hfrom : t.fromAddress = address := hcarries.fromAddress.symm.trans hsends.2
        have hamount : (tx.amount : Int) = t.amount.toNat := hcarries.amount
        have hpositive := t.amountPositive
        rw [if_pos hsends, if_pos hfrom]
        omega
      next => exact (hspent rfl).elim
    · rw [if_neg hmined] at hspent
      exact (hspent rfl).elim

end TokenWorld

end CryptoWallet
