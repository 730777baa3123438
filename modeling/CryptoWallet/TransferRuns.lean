import CryptoWallet.DepositConfirmation
import CryptoWallet.OutgoingCases

/-!
# Transfers between runs of the workers

The broadcaster, the watcher and the chain take turns.  The watcher leaves out a
record whose stored block lies too far below the head, also when it is not settled
yet; so nobody looks at it again unless the head stays near the stored block.
-/

namespace CryptoWallet.Blockchain

open Tx
open MockChain (ChainStep headNumber)

/-- The simulated node and the database of the service. -/
structure TransferWorld where
  chain : MockChain.State
  db : Db

inductive TransferAction where
  | chain (step : ChainStep)
  | request (scope : Scope) (envelope : Envelope)
  | broadcast (scope : Scope) (limit : Nat)
  | watch (scope : Scope)

namespace TransferWorld

def start (addresses : Table String Address Address.owner) : TransferWorld :=
  ⟨.empty, { Db.empty with addresses }⟩

def step (config : MockChain.Config) (settings : Settings) (action : TransferAction)
    (w : TransferWorld) : TransferWorld :=
  match action with
  | .chain chainStep => { w with chain := MockChain.chainStep config chainStep w.chain }
  | .request scope envelope => { w with db := (commit (dispatch scope envelope) w.db).2 }
  | .broadcast scope limit =>
    let run := broadcastOnce (MockChain.adapter config) settings scope limit w.chain w.db
    ⟨run.2.1, run.2.2⟩
  | .watch scope =>
    { w with
      db := (watchOutgoingOnce (MockChain.adapter config) settings scope w.chain
        (fun _ => w.chain) w.db).2 }

/-- A run of the watcher looks at every broadcast record. -/
def InSight (settings : Settings) (w : TransferWorld) : Prop :=
  ∀ record ∈ w.db.outgoing.rows, record.status = .broadcasted →
    record.transferId ∈ candidates settings (headNumber w.chain) w.db

instance (settings : Settings) (w : TransferWorld) : Decidable (w.InSight settings) :=
  inferInstanceAs (Decidable (∀ record ∈ w.db.outgoing.rows, _))

end TransferWorld

/-- The block in which the record was found is not past the finality depth. -/
def OutgoingTransaction.Near (settings : Settings) (head : Nat)
    (record : OutgoingTransaction) : Prop :=
  match record.blockNumber with
  | none => True
  | some blockNumber => head < blockNumber + settings.finalityDepth

instance (settings : Settings) (head : Nat) (record : OutgoingTransaction) :
    Decidable (record.Near settings head) :=
  match h : record.blockNumber with
  | none => .isTrue (by simp [OutgoingTransaction.Near, h])
  | some blockNumber =>
    if hnear : head < blockNumber + settings.finalityDepth then
      .isTrue (by simpa [OutgoingTransaction.Near, h] using hnear)
    else .isFalse (by simpa [OutgoingTransaction.Near, h] using hnear)

namespace TransferWorld

/-- The head does not run away from a record which was broadcast, a record left over
from an old block is not broadcast again, and confirmation comes before finality. -/
def Admitted (config : MockChain.Config) (settings : Settings) (w : TransferWorld) :
    TransferAction → Prop
  | .chain chainStep => ∀ record ∈ w.db.outgoing.rows, record.status = .broadcasted →
      record.Near settings (headNumber (MockChain.chainStep config chainStep w.chain))
  | .request _ _ => True
  | .broadcast scope limit => ∀ record ∈ dueRecords scope.now limit w.db,
      record.Near settings (headNumber w.chain)
  | .watch _ => settings.confirmationsRequired ≤ settings.finalityDepth

instance (config : MockChain.Config) (settings : Settings) (w : TransferWorld)
    (action : TransferAction) : Decidable (w.Admitted config settings action) :=
  match action with
  | .chain _ => inferInstanceAs (Decidable (∀ record ∈ w.db.outgoing.rows, _))
  | .request _ _ => .isTrue trivial
  | .broadcast scope limit =>
    inferInstanceAs (Decidable (∀ record ∈ dueRecords scope.now limit w.db, _))
  | .watch _ => inferInstanceAs (Decidable (_ ≤ _))

end TransferWorld

/-! ## Each run -/

/-- Every broadcast record is near the head. -/
def Db.BroadcastNear (settings : Settings) (head : Nat) (db : Db) : Prop :=
  ∀ record ∈ db.outgoing.rows, record.status = .broadcasted → record.Near settings head

theorem inSight_iff {settings : Settings} {w : TransferWorld} :
    w.InSight settings ↔ w.db.BroadcastNear settings (headNumber w.chain) := by
  have hrow : ∀ record ∈ w.db.outgoing.rows, record.status = .broadcasted →
      (record.transferId ∈ candidates settings (headNumber w.chain) w.db ↔
        record.Near settings (headNumber w.chain)) := by
    intro record hrecord hstatus
    rw [mem_candidates]
    simp only [w.db.outgoing.find?_of_mem hrecord, Option.some.injEq, exists_eq_left',
      OutgoingTransaction.candidate, OutgoingTransaction.Near, hstatus]
    cases record.blockNumber <;> simp
  constructor
  · intro h record hrecord hstatus
    exact (hrow record hrecord hstatus).mp (h record hrecord hstatus)
  · intro h record hrecord hstatus
    exact (hrow record hrecord hstatus).mpr (h record hrecord hstatus)

section Runs

variable {config : MockChain.Config} {settings : Settings} {head : Nat}

theorem Db.BroadcastNear.replaced {db db' : Db} (h : db.BroadcastNear settings head)
    {record record' : OutgoingTransaction}
    (hrecord : db.outgoing.find? record.transferId = some record)
    (hkey : record'.transferId = record.transferId)
    (hreplace : db'.outgoing = db.outgoing.replace record')
    (hnear : record'.status = .broadcasted → record'.Near settings head) :
    db'.BroadcastNear settings head := by
  intro r hr
  rw [hreplace] at hr
  rw [← hkey] at hrecord
  rcases (Table.mem_replace _ hrecord).mp hr with rfl | ⟨hr, _⟩
  · exact hnear
  · exact h r hr

/-- A check which does not confirm the record finds it at most as deep as the
confirmations it waits for. -/
theorem Checked.broadcastNear {scope : Scope} {seen : SeenRecord} {db db' : Db}
    {record : OutgoingTransaction} {receipt : Option TxReceipt}
    (hchecked : Checked settings scope head seen db record receipt db')
    (hsettings : settings.confirmationsRequired ≤ settings.finalityDepth)
    (hrecord : db.outgoing.find? record.transferId = some record)
    (h : db.BroadcastNear settings head) : db'.BroadcastNear settings head := by
  have hwritten : ∀ record', record'.transferId = record.transferId →
      record'.status ≠ .broadcasted → db'.outgoing = db.outgoing.replace record' →
      db'.BroadcastNear settings head := by
    intro record' hkey hstatus hreplace
    exact h.replaced hrecord hkey hreplace fun hbroadcasted => (hstatus hbroadcasted).elim
  cases hchecked with
  | reverted receipt hreverted hopen payload hpayload db' hannounces =>
      obtain ⟨outbox, _, rfl⟩ := hannounces
      exact hwritten ((record.minedIn head receipt).failedFor revertReason) rfl
        (by simp [OutgoingTransaction.failedFor]) rfl
  | confirmed receipt hripe payload hpayload db' hannounces =>
      obtain ⟨outbox, _, rfl⟩ := hannounces
      exact hwritten (record.minedIn head receipt).confirmed rfl
        (by simp [OutgoingTransaction.confirmed]) rfl
  | mined receipt hreverted hripe =>
      have hkey : (record.minedIn head receipt).transferId = record.transferId := rfl
      refine h.replaced hrecord hkey rfl ?_
      intro hbroadcasted
      change record.status = .broadcasted at hbroadcasted
      have hsuccess : receipt.status ≠ 0 := by
        intro hzero
        rw [hreverted hzero] at hbroadcasted
        cases hbroadcasted
      have hshallow : ¬settings.confirmationsRequired ≤ head + 1 - receipt.blockNumber :=
        fun hdeep => hripe ⟨hbroadcasted, hsuccess, hdeep⟩
      change head < receipt.blockNumber + settings.finalityDepth
      omega
  | reorged hseen payload hpayload dedupeKey db' hannounces =>
      obtain ⟨outbox, _, rfl⟩ := hannounces
      exact hwritten record.reorged rfl (by simp [OutgoingTransaction.reorged]) rfl
  | waiting hseen hstuck => exact h
  | requeued hseen hstuck hattempts =>
      exact hwritten (record.requeued scope.now) rfl
        (by simp [OutgoingTransaction.requeued]) rfl
  | abandoned hseen hstuck hattempts reason payload hpayload db' hannounces =>
      obtain ⟨outbox, _, rfl⟩ := hannounces
      exact hwritten (record.failedFor reason) rfl
        (by simp [OutgoingTransaction.failedFor]) rfl

theorem watchOutgoingOnce_broadcastNear
    (hsettings : settings.confirmationsRequired ≤ settings.finalityDepth) (scope : Scope)
    {chain : MockChain.State} {db : Db} (h : db.BroadcastNear settings (headNumber chain)) :
    (watchOutgoingOnce (MockChain.adapter config) settings scope chain (fun _ => chain)
      db).2.BroadcastNear settings (headNumber chain) := by
  unfold watchOutgoingOnce
  split
  next => exact h
  next => exact h
  next head hhead =>
    have hsame := MockChain.getBlockNumber_ok hhead
    subst hsame
    apply visitAll_preserves (I := fun db : Db => db.BroadcastNear settings
      (headNumber chain))
    · intro id _ db' hdb'
      rcases checkOne_cases (MockChain.adapter config) settings scope chain
          (headNumber chain) id db' with
        hraised | ⟨_, hskipped⟩ | ⟨record, seen, receipt, outcome, after, hrecord, _, _,
          hchecked, hreturned⟩
      · rw [hraised]
        exact hdb'
      · rw [hskipped]
        exact hdb'
      · rw [hreturned]
        have hkey := Table.key_of_find? hrecord
        subst hkey
        exact hchecked.broadcastNear hsettings hrecord hdb'
    · exact h

/-- While the claimed rows are sent, they and the broadcast records are near the
head. -/
def ClaimedNear (settings : Settings) (blocks : Table ChainHash MockChain.MockBlock
    MockChain.MockBlock.hash) (head : Nat) (ids : List Uuid)
    (state : MockChain.State × Db) : Prop :=
  state.1.blocks = blocks ∧ ∀ record ∈ state.2.outgoing.rows,
    record.status = .broadcasted ∨ record.transferId ∈ ids → record.Near settings head

theorem broadcastOne_claimedNear {blocks : Table ChainHash MockChain.MockBlock
      MockChain.MockBlock.hash} {ids : List Uuid} (scope : Scope) (row : OutgoingTransaction)
    (hrow : row.transferId ∈ ids) (state : MockChain.State × Db)
    (h : ClaimedNear settings blocks head ids state) :
    ClaimedNear settings blocks head ids
      (broadcastOne (MockChain.adapter config) settings scope row state).2 := by
  obtain ⟨hblocks, hrows⟩ := h
  refine ⟨(MockChain.submit_blocks config false row.sendRequest state.1).trans hblocks, ?_⟩
  unfold broadcastOne
  dsimp only
  apply commit_preserves (I := fun db : Db => ∀ record ∈ db.outgoing.rows,
    record.status = .broadcasted ∨ record.transferId ∈ ids → record.Near settings head) hrows
  apply (broadcastTx_ensures _ _ _ _ _).mono
  · rintro _ db' (⟨_, rfl⟩ | ⟨record, hrecord, hanswered⟩)
    · exact hrows
    · have hkey := Table.key_of_find? hrecord
      rcases hanswered.written with hsame | ⟨record', hrequest, hnumber, hreplace⟩
      · rw [hsame]
        exact hrows
      · intro r hr hnear
        rw [hreplace] at hr
        rw [← hkey, ← hrequest.transferId] at hrecord
        rcases (Table.mem_replace _ hrecord).mp hr with rfl | ⟨hr, _⟩
        · have hclaimed : record.transferId ∈ ids := by
            rw [hkey]
            exact hrow
          have hold := hrows record (Table.mem_of_find? hrecord) (Or.inr hclaimed)
          unfold OutgoingTransaction.Near at hold ⊢
          rw [hnumber]
          exact hold
        · exact hrows r hr hnear
  · exact fun _ _ => trivial

theorem mem_dueRecords {now limit : Nat} {db : Db} {record : OutgoingTransaction}
    (h : record ∈ dueRecords now limit db) :
    record ∈ db.outgoing.rows ∧ record.due now = true := by
  unfold dueRecords at h
  have hmem := List.mem_of_mem_take h
  rw [List.mem_insertionSort] at hmem
  exact List.mem_filter.mp hmem

theorem claimDue_claimedNear {now limit : Nat} {chain : MockChain.State} {db : Db}
    (h : db.BroadcastNear settings (headNumber chain))
    (hdue : ∀ record ∈ dueRecords now limit db, record.Near settings (headNumber chain)) :
    ClaimedNear settings chain.blocks (headNumber chain)
      ((claimDue now limit db).1.map OutgoingTransaction.transferId)
      (chain, (claimDue now limit db).2) := by
  refine ⟨rfl, ?_⟩
  intro r hr hnear
  obtain ⟨record, hrecord, rfl⟩ := List.mem_map.mp hr
  by_cases hclaimed : record ∈ dueRecords now limit db
  · rw [if_pos hclaimed]
    exact hdue record hclaimed
  · rw [if_neg hclaimed] at hnear ⊢
    rcases hnear with hbroadcasted | hid
    · exact h record hrecord hbroadcasted
    · -- the claimed row with this id would be this record
      obtain ⟨row, hrow, hkey⟩ := List.mem_map.mp hid
      obtain ⟨other, hother, rfl⟩ := List.mem_map.mp hrow
      have hsame := db.outgoing.eq_of_mem_of_key_eq (mem_dueRecords hother).1 hrecord hkey
      exact (hclaimed (hsame ▸ hother)).elim

theorem broadcastOnce_broadcastNear (scope : Scope) (limit : Nat) {chain : MockChain.State}
    {db : Db} (h : db.BroadcastNear settings (headNumber chain))
    (hdue : ∀ record ∈ dueRecords scope.now limit db,
      record.Near settings (headNumber chain)) :
    let run := broadcastOnce (MockChain.adapter config) settings scope limit chain db
    run.2.2.BroadcastNear settings (headNumber run.2.1) := by
  intro run
  have hend : ClaimedNear settings chain.blocks (headNumber chain)
      ((claimDue scope.now limit db).1.map OutgoingTransaction.transferId) run.2 := by
    apply visitAll_preserves (I := ClaimedNear settings chain.blocks (headNumber chain)
      ((claimDue scope.now limit db).1.map OutgoingTransaction.transferId))
    · intro row hrow state hstate
      exact broadcastOne_claimedNear scope row (List.mem_map_of_mem hrow) state hstate
    · exact claimDue_claimedNear h hdue
  have hhead : headNumber run.2.1 = headNumber chain := by
    unfold headNumber MockChain.head?
    rw [hend.1]
  rw [hhead]
  exact fun record hrecord hstatus => hend.2 record hrecord (Or.inl hstatus)

theorem dispatch_broadcastNear (scope : Scope) (envelope : Envelope) {db : Db}
    (h : db.BroadcastNear settings head) :
    (commit (dispatch scope envelope) db).2.BroadcastNear settings head := by
  apply commit_preserves h
  apply (dispatch_ensures scope envelope db).mono
  · intro _ db' hdispatched
    cases hdispatched with
    | duplicate => exact h
    | ignored processedEvents => exact h
    | accepted processedEvents hrequested db' haccepted =>
        cases haccepted with
        | duplicate record hproposed htaken => exact h
        | accepted record hproposed hknown outgoing hinsert =>
            intro r hr hstatus
            rcases (Table.mem_insert? hinsert).mp hr with hr | rfl
            · exact h r hr hstatus
            · rw [(proposedOutgoing_untouched hproposed).status] at hstatus
              cases hstatus
        | unknown record hproposed hunknown outgoing hinsert failed hpayload db' hannounces =>
            obtain ⟨outbox, _, rfl⟩ := hannounces
            have hstored : outgoing.find? (record.failedFor
                unknownAddressReason).transferId = some record :=
              (Table.find?_insert? hinsert _).trans (if_pos rfl)
            intro r hr hstatus
            rcases (Table.mem_replace _ hstored).mp hr with rfl | ⟨hr, hne⟩
            · cases hstatus
            · rcases (Table.mem_insert? hinsert).mp hr with hr | rfl
              · exact h r hr hstatus
              · exact (hne rfl).elim
  · exact fun _ _ => trivial

end Runs

namespace TransferWorld

theorem step_inSight {config : MockChain.Config} {settings : Settings} (w : TransferWorld)
    (action : TransferAction) (h : w.InSight settings)
    (hadmitted : w.Admitted config settings action) :
    (step config settings action w).InSight settings := by
  rw [inSight_iff] at h ⊢
  cases action with
  | chain chainStep => exact hadmitted
  | request scope envelope => exact dispatch_broadcastNear scope envelope h
  | broadcast scope limit => exact broadcastOnce_broadcastNear scope limit h hadmitted
  | watch scope => exact watchOutgoingOnce_broadcastNear hadmitted scope h

/-- In every run whose steps are admitted the watcher looks at every broadcast record. -/
theorem admitted_runs_keep_sight {config : MockChain.Config} {settings : Settings}
    {addresses : Table String Address Address.owner} {actions : List TransferAction}
    (hadmitted : AdmittedRun (step config settings) (Admitted config settings)
      (start addresses) actions) :
    (runSteps (step config settings) (start addresses) actions).InSight settings := by
  have hstart : (start addresses).InSight settings := by
    intro record hrecord
    simp [start, Db.empty] at hrecord
  exact hadmitted.invariant (I := fun w : TransferWorld => w.InSight settings)
    step_inSight hstart

/-! ### A transfer nobody looks at -/

def someRequest (n : Nat) : Envelope where
  eventId := .uuid4 n
  eventType := .transferRequested
  producer := "wallet-service"
  correlationId := "correlation"
  payload := [
    ("transfer_id", .str (someUuid n).str),
    ("from_address", .str custodyAddress.address.val),
    ("to_address", .str "0x2222222222222222222222222222222222222222"),
    ("amount_units", .str "40")]
  extra := []

/-- A transfer is mined in block 3 and seen there; then that many blocks follow. -/
def unwatchedRun (above : Nat) : List TransferAction :=
  [.chain .ensureStarted,
    .chain (.simulateDeposit custodyAddress.address.val 500 "deposit-1"),
    .chain (.mineBlock (someUuid 0)), .request someScope (someRequest 1),
    .broadcast someScope 20, .chain (.mineBlock (someUuid 1)), .watch someScope] ++
    (List.range above).map fun n => .chain (.mineBlock (someUuid (n + 2)))

/-- Fifteen blocks without a run of the watcher, and the transfer is out of sight. -/
theorem unwatched_transfer_is_out_of_sight :
    ¬(runSteps (step .bsc .standard) (start Db.custody.addresses)
      (unwatchedRun 15)).InSight .standard := by
  decide +kernel

theorem watched_transfer_is_in_sight :
    (runSteps (step .bsc .standard) (start Db.custody.addresses)
      (unwatchedRun 2)).InSight .standard :=
  admitted_runs_keep_sight (by decide +kernel)

end TransferWorld
end CryptoWallet.Blockchain
