import CryptoWallet.Mempool
import CryptoWallet.RetryBudget
import CryptoWallet.TransferReports
import CryptoWallet.TransferRuns
import CryptoWallet.WatcherRuns

/-!
# Due transfers are broadcast in turn

While the node answers, a run of the broadcaster sends every record it has claimed, and a
record which was sent is not due again by itself.  So a due record is broadcast once the
runs come to the records which are open, and each of these takes one place of the mempool
at most.
-/

namespace CryptoWallet

/-! ## What the node makes of a request -/

namespace MockChain

/-- The node has the transaction, and has not given it up. -/
def Live (hash : ChainHash) (s : State) : Prop := TakenUp hash s ∨ Waits hash s

/-- The transaction can be sent again. -/
def Usable (hash : ChainHash) (s : State) : Prop :=
  ∀ tx ∈ s.transactions.rows, tx.hash = hash → tx.status ≠ .dropped

instance (hash : ChainHash) (s : State) : Decidable (Usable hash s) :=
  inferInstanceAs (Decidable (∀ _ ∈ _, _ → _))

section Submit

variable {config : Config} {isMint : Bool} {request : SendRequest} {s : State}
  {hash : ChainHash}

theorem Usable.live (h : Usable hash s) {tx : MockTx} (htx : tx ∈ s.transactions.rows)
    (hhash : tx.hash = hash) : Live hash s := by
  have hkept := h tx htx hhash
  cases hstatus : tx.status with
  | pending => exact Or.inr ⟨tx, htx, hhash, hstatus⟩
  | mined => exact Or.inl ⟨tx, htx, hhash, Or.inl hstatus⟩
  | failed => exact Or.inl ⟨tx, htx, hhash, Or.inr hstatus⟩
  | dropped => exact (hkept hstatus).elim

/-- A submission leaves the rows as they are, or adds a pending one. -/
theorem submit_rows (config : Config) (isMint : Bool) (request : SendRequest) (s : State) :
    (submit config isMint request s).2.transactions.rows = s.transactions.rows ∨
      ∃ tx, tx.hash = txHashOf config request.clientRef ∧ tx.status = .pending ∧
        (submit config isMint request s).2.transactions.rows =
          s.transactions.rows ++ [tx] := by
  rcases submit_cases config isMint request s with hsame | hnew
  · rw [hsame]
    exact Or.inl rfl
  · obtain ⟨tx, transactions, hinsert, hhash, hpending, _, _, _, hs'⟩ := hnew
    rw [hs']
    exact Or.inr ⟨tx, hhash, hpending, Table.insert?_rows hinsert⟩

theorem submit_faults (config : Config) (isMint : Bool) (request : SendRequest) (s : State) :
    (submit config isMint request s).2.faults = s.faults := by
  rcases submit_cases config isMint request s with hsame | hnew
  · rw [hsame]
  · obtain ⟨tx, transactions, _, _, _, _, _, _, hs'⟩ := hnew
    rw [hs']

theorem mem_submit {tx : MockTx} (htx : tx ∈ s.transactions.rows) :
    tx ∈ (submit config isMint request s).2.transactions.rows := by
  rcases submit_rows config isMint request s with hrows | ⟨_, _, _, hrows⟩
  · rwa [hrows]
  · rw [hrows]
    exact List.mem_append_left _ htx

theorem Usable.submit (h : Usable hash s) :
    Usable hash (MockChain.submit config isMint request s).2 := by
  intro tx htx hhash
  rcases submit_rows config isMint request s with hrows | ⟨new, _, hpending, hrows⟩
  · rw [hrows] at htx
    exact h tx htx hhash
  · rw [hrows, List.mem_append, List.mem_singleton] at htx
    rcases htx with hold | rfl
    · exact h tx hold hhash
    · rw [hpending]
      simp

theorem Live.submit (h : Live hash s) : Live hash (MockChain.submit config isMint request s).2 := by
  rcases h with ⟨tx, htx, hdone⟩ | ⟨tx, htx, hwaits⟩
  · exact Or.inl ⟨tx, mem_submit htx, hdone⟩
  · exact Or.inr ⟨tx, mem_submit htx, hwaits⟩

theorem mempool_submit (config : Config) (isMint : Bool) (request : SendRequest) (s : State) :
    mempool (MockChain.submit config isMint request s).2 ≤ mempool s + 1 := by
  unfold mempool
  rcases submit_rows config isMint request s with hrows | ⟨tx, _, _, hrows⟩
  · rw [hrows]
    omega
  · rw [hrows, List.countP_append]
    have hone : [tx].countP (fun tx => decide (tx.status = .pending)) ≤ [tx].length :=
      List.countP_le_length
    simp only [List.length_singleton] at hone
    omega

theorem submit_ok (h : (submit config isMint request s).1 = .ok hash) :
    hash = txHashOf config request.clientRef := by
  unfold MockChain.submit at h
  split at h
  next => cases h
  next =>
    split at h
    next => cases h
    next =>
      split at h
      next =>
        split at h
        next => exact (Except.ok.inj h).symm
        next => cases h
      next => cases h

theorem assertRpcUp_same {s' : State} (h : s'.faults = s.faults) :
    assertRpcUp s' = assertRpcUp s := by
  unfold assertRpcUp
  rw [h]

/-- The node takes a request which fits its columns, or has it already. -/
theorem submit_answers (hup : assertRpcUp s = .ok ()) (hpositive : 0 < request.amount)
    (hamount : request.amount.natAbs < 10 ^ 78) {fromAddress toAddress : Varchar 64}
    (hfrom : varchar 64 request.fromAddress = .ok fromAddress)
    (hto : varchar 64 request.toAddress = .ok toAddress) :
    (MockChain.submit config isMint request s).1 = .ok (txHashOf config request.clientRef) ∧
      ∃ tx ∈ (MockChain.submit config isMint request s).2.transactions.rows,
        tx.hash = txHashOf config request.clientRef := by
  unfold MockChain.submit
  rw [if_neg (by omega)]
  simp only [hup, hfrom, hto, if_pos hamount, true_and]
  cases hinsert : s.transactions.insert? _ with
  | none =>
      have hsome := (s.transactions.insert?_eq_none_iff _).mp hinsert
      obtain ⟨tx, htx⟩ := Option.isSome_iff_exists.mp hsome
      exact ⟨tx, Table.mem_of_find? htx, Table.key_of_find? htx⟩
  | some transactions =>
      exact ⟨_, (Table.mem_insert? hinsert).mpr (Or.inr rfl), rfl⟩

/-- The node was handed transactions. -/
structure Fed (hashes : List ChainHash) (s s' : State) : Prop where
  usable : ∀ hash, Usable hash s → Usable hash s'
  live : ∀ hash, Live hash s → Live hash s'
  sent : ∀ hash ∈ hashes, Usable hash s → Live hash s'
  mempool : mempool s' ≤ MockChain.mempool s + hashes.length
  faults : s'.faults = s.faults
  blocks : s'.blocks = s.blocks
  consistent : Consistent s → Consistent s'

theorem Fed.refl (s : State) : Fed [] s s where
  usable := fun _ h => h
  live := fun _ h => h
  sent := by simp
  mempool := by simp
  faults := rfl
  blocks := rfl
  consistent := fun h => h

theorem Fed.cons {rest : List ChainHash} {s' : State}
    (htaken : ∃ tx ∈ (MockChain.submit config isMint request s).2.transactions.rows,
      tx.hash = hash) (h : Fed rest (MockChain.submit config isMint request s).2 s') :
    Fed (hash :: rest) s s' where
  usable := fun _ husable => h.usable _ husable.submit
  live := fun _ hlive => h.live _ hlive.submit
  sent := by
    intro other hother husable
    rcases List.mem_cons.mp hother with rfl | hrest
    · obtain ⟨tx, htx, hhash⟩ := htaken
      exact h.live _ (husable.submit.live htx hhash)
    · exact h.sent other hrest husable.submit
  mempool := by
    have hrest := h.mempool
    have hfirst := mempool_submit config isMint request s
    rw [List.length_cons]
    omega
  faults := h.faults.trans (submit_faults config isMint request s)
  blocks := h.blocks.trans (submit_blocks config isMint request s)
  consistent := fun hs => h.consistent (submit_consistent hs)

end Submit

end MockChain

namespace Blockchain

open Tx
open MockChain (Live Usable assertRpcUp mempool submit)

/-! ## What the records say about the node -/

/-- The transaction of the record. -/
def OutgoingTransaction.nodeHash (config : MockChain.Config) (record : OutgoingTransaction) :
    ChainHash :=
  MockChain.txHashOf config record.transferId.str

/-- The record is still to be sent. -/
def OutgoingTransaction.unsent (record : OutgoingTransaction) : Bool :=
  record.status = .created || record.status = .pending

/-- A stored hash is that of the record. -/
def Db.Hashed (config : MockChain.Config) (db : Db) : Prop :=
  ∀ record ∈ db.outgoing.rows, ∀ txHash, record.txHash = some txHash →
    txHash = record.nodeHash config

section Hashed

variable {config : MockChain.Config} {settings : Settings} {scope : Scope} {db db' : Db}
  {record : OutgoingTransaction}

theorem Db.Hashed.replaced (h : db.Hashed config) {record' : OutgoingTransaction}
    (hrecord : db.outgoing.find? record.transferId = some record)
    (hkey : record'.transferId = record.transferId)
    (hreplace : db'.outgoing = db.outgoing.replace record')
    (hhash : record'.txHash = record.txHash ∨
      record'.txHash = some (record.nodeHash config)) : db'.Hashed config := by
  intro row hrow txHash hstored
  rw [← hkey] at hrecord
  rw [hreplace, Table.mem_replace _ hrecord] at hrow
  rcases hrow with rfl | ⟨hold, _⟩
  · rw [OutgoingTransaction.nodeHash, hkey]
    rcases hhash with hsame | hnew
    · rw [hsame] at hstored
      exact h record (Table.mem_of_find? hrecord) txHash hstored
    · rw [hnew, Option.some.injEq] at hstored
      exact hstored.symm
  · exact h row hold txHash hstored

theorem Checked.hashed {head : Nat} {seen : SeenRecord} {receipt : Option TxReceipt}
    (hchecked : Checked settings scope head seen db record receipt db')
    (hrecord : db.outgoing.find? record.transferId = some record) (h : db.Hashed config) :
    db'.Hashed config := by
  have hwritten : ∀ record' : OutgoingTransaction, record'.transferId = record.transferId →
      record'.txHash = record.txHash → db'.outgoing = db.outgoing.replace record' →
      db'.Hashed config := by
    intro record' hkey hhash hreplace
    exact h.replaced hrecord hkey hreplace (Or.inl hhash)
  cases hchecked with
  | reverted receipt hreverted hopen payload hpayload db' hannounces =>
      obtain ⟨outbox, _, rfl⟩ := hannounces
      exact hwritten ((record.minedIn head receipt).failedFor revertReason) rfl rfl rfl
  | confirmed receipt hripe payload hpayload db' hannounces =>
      obtain ⟨outbox, _, rfl⟩ := hannounces
      exact hwritten (record.minedIn head receipt).confirmed rfl rfl rfl
  | mined receipt hreverted hripe => exact hwritten (record.minedIn head receipt) rfl rfl rfl
  | reorged hseen payload hpayload dedupeKey db' hannounces =>
      obtain ⟨outbox, _, rfl⟩ := hannounces
      exact hwritten record.reorged rfl rfl rfl
  | waiting hseen hstuck => exact h
  | requeued hseen hstuck hattempts => exact hwritten (record.requeued scope.now) rfl rfl rfl
  | abandoned hseen hstuck hattempts reason payload hpayload db' hannounces =>
      obtain ⟨outbox, _, rfl⟩ := hannounces
      exact hwritten (record.failedFor reason) rfl rfl rfl

theorem Answered.hashed {row : OutgoingTransaction} {answer : Except ChainError ChainHash}
    (hanswered : Answered settings scope row db record answer db')
    (hrecord : db.outgoing.find? record.transferId = some record)
    (hanswer : ∀ txHash, answer = .ok txHash → txHash = record.nodeHash config)
    (h : db.Hashed config) : db'.Hashed config := by
  cases hanswered with
  | closed txHash hstatus => exact h
  | broadcast txHash hopen payload hpayload db' hannounces =>
      obtain ⟨outbox, _, rfl⟩ := hannounces
      have hkey : (record.broadcastedAs scope.now txHash).transferId = record.transferId := rfl
      apply h.replaced hrecord hkey rfl
      right
      rw [← hanswer txHash rfl]
      rfl
  | confirmed answer habandoned hstatus => exact h
  | failed answer habandoned hopen reason code payload hpayload db' hannounces =>
      obtain ⟨outbox, _, rfl⟩ := hannounces
      have hkey : (record.failedBroadcast reason).transferId = record.transferId := rfl
      exact h.replaced hrecord hkey rfl (Or.inl rfl)
  | retried answer hretriable reason =>
      have hkey : (record.retried scope.now row.attempts reason).transferId =
          record.transferId := rfl
      exact h.replaced hrecord hkey rfl (Or.inl rfl)

theorem Dispatched.hashed {envelope : Envelope} (hdispatched : Dispatched scope envelope db db')
    (h : db.Hashed config) : db'.Hashed config := by
  have hinserted : ∀ (mid : Db) (proposed : OutgoingTransaction) (outgoing : Table Uuid
      OutgoingTransaction OutgoingTransaction.transferId), mid.outgoing = db.outgoing →
      proposed.Untouched → mid.outgoing.insert? proposed = some outgoing →
      Db.Hashed config { mid with outgoing } := by
    intro mid proposed outgoing hsame huntouched hinsert row hrow txHash hstored
    rcases (Table.mem_insert? hinsert).mp hrow with hold | rfl
    · rw [hsame] at hold
      exact h row hold txHash hstored
    · rw [huntouched.txHash] at hstored
      cases hstored
  cases hdispatched with
  | duplicate => exact h
  | ignored processedEvents => exact h
  | accepted processedEvents hrequested db' haccepted =>
      cases haccepted with
      | duplicate proposed hproposed htaken => exact h
      | accepted proposed hproposed hknown outgoing hinsert =>
          exact hinserted _ proposed outgoing rfl (proposedOutgoing_untouched hproposed) hinsert
      | unknown proposed hproposed hunknown outgoing hinsert failed hpayload db' hannounces =>
          obtain ⟨outbox, _, rfl⟩ := hannounces
          have hmid := hinserted { db with processedEvents } proposed outgoing rfl
            (proposedOutgoing_untouched hproposed) hinsert
          have hstored : outgoing.find? proposed.transferId = some proposed :=
            (Table.find?_insert? hinsert _).trans (if_pos rfl)
          have hkey : (proposed.failedFor unknownAddressReason).transferId =
              proposed.transferId := rfl
          exact hmid.replaced hstored hkey rfl (Or.inl rfl)

/-! ### The hashes in every run -/

theorem dispatch_hashed (scope : Scope) (envelope : Envelope) (h : db.Hashed config) :
    (commit (dispatch scope envelope) db).2.Hashed config := by
  apply commit_preserves (I := fun db' : Db => db'.Hashed config) h
  apply (dispatch_ensures scope envelope db).mono
  · exact fun _ db' hdispatched => hdispatched.hashed h
  · exact fun _ _ => trivial

theorem broadcastOne_hashed (settings : Settings) (scope : Scope) (row : OutgoingTransaction)
    (state : MockChain.State × Db) (h : state.2.Hashed config) :
    (broadcastOne (MockChain.adapter config) settings scope row state).2.2.Hashed config := by
  unfold broadcastOne
  dsimp only
  apply commit_preserves (I := fun db' : Db => db'.Hashed config) h
  apply (broadcastTx_ensures _ _ _ _ _).mono
  · rintro _ db' (⟨_, rfl⟩ | ⟨record, hrecord, hanswered⟩)
    · exact h
    · have hkey := Table.key_of_find? hrecord
      rw [← hkey] at hrecord
      apply hanswered.hashed hrecord ?_ h
      intro txHash hanswer
      have hsubmitted : (submit config false row.sendRequest state.1).1 = .ok txHash :=
        hanswer
      rw [OutgoingTransaction.nodeHash, hkey, MockChain.submit_ok hsubmitted]
      rfl
  · exact fun _ _ => trivial

theorem claimDue_hashed (now limit : Nat) (h : db.Hashed config) :
    (claimDue now limit db).2.Hashed config := by
  intro row hrow txHash hstored
  obtain ⟨record, hrecord, rfl⟩ := List.mem_map.mp hrow
  split at hstored
  next hdue =>
    rw [if_pos hdue]
    exact h record hrecord txHash hstored
  next hdue =>
    rw [if_neg hdue]
    exact h record hrecord txHash hstored

theorem watchOutgoingOnce_hashed (settings : Settings) (scope : Scope)
    (chain : MockChain.State) (h : db.Hashed config) :
    (watchOutgoingOnce (MockChain.adapter config) settings scope chain (fun _ => chain)
      db).2.Hashed config := by
  unfold watchOutgoingOnce
  split
  next => exact h
  next => exact h
  next head _ =>
    apply visitAll_preserves (I := fun db' : Db => db'.Hashed config) ?_ h
    intro id _ db' hdb'
    rcases checkOne_cases (MockChain.adapter config) settings scope chain head id db' with
      hraised | ⟨_, hskipped⟩ | ⟨record, seen, receipt, outcome, after, hrecord, _, _,
        hchecked, hreturned⟩
    · rw [hraised]
      exact hdb'
    · rw [hskipped]
      exact hdb'
    · rw [hreturned]
      have hkey := Table.key_of_find? hrecord
      subst hkey
      exact hchecked.hashed hrecord hdb'

/-- The chain was executed block by block, and the records hold its hashes. -/
structure Matching (config : MockChain.Config) (state : MockChain.State × Db) : Prop where
  consistent : MockChain.Consistent state.1
  hashed : state.2.Hashed config

theorem broadcastOnce_matching (settings : Settings) (scope : Scope) (limit : Nat)
    {chain : MockChain.State} (h : Matching config (chain, db)) :
    Matching config
      (broadcastOnce (MockChain.adapter config) settings scope limit chain db).2 := by
  apply visitAll_preserves (I := Matching config)
  · intro row _ state hstate
    exact ⟨MockChain.submit_consistent hstate.consistent,
      broadcastOne_hashed settings scope row state hstate.hashed⟩
  · exact ⟨h.consistent, claimDue_hashed scope.now limit h.hashed⟩

theorem step_matching (settings : Settings) (w : TransferWorld) (action : TransferAction)
    (h : Matching config (w.chain, w.db)) :
    Matching config ((TransferWorld.step config settings action w).chain,
      (TransferWorld.step config settings action w).db) := by
  cases action with
  | chain chainStep =>
      exact ⟨MockChain.chainStep_consistent config w.chain chainStep h.consistent, h.hashed⟩
  | request scope envelope => exact ⟨h.consistent, dispatch_hashed scope envelope h.hashed⟩
  | broadcast scope limit => exact broadcastOnce_matching settings scope limit h
  | watch scope =>
      exact ⟨h.consistent, watchOutgoingOnce_hashed settings scope w.chain h.hashed⟩

theorem run_matching (settings : Settings) (addresses : Table String Address Address.owner)
    (actions : List TransferAction) :
    let w := runSteps (TransferWorld.step config settings) (.start addresses) actions
    Matching config (w.chain, w.db) := by
  apply runSteps_preserves (I := fun w : TransferWorld => Matching config (w.chain, w.db))
  · exact fun w action h => step_matching settings w action h
  · refine ⟨MockChain.empty_consistent, ?_⟩
    intro record hrecord
    simp [TransferWorld.start, Db.empty] at hrecord

end Hashed

/-! ## The turn of one row -/

/-- No digest is shared by two records, and the assets are those of the registry. -/
structure Db.Sendable (config : MockChain.Config) (db : Db) : Prop where
  hashed : db.Hashed config
  distinct : ∀ record ∈ db.outgoing.rows, ∀ other ∈ db.outgoing.rows,
    record.nodeHash config = other.nodeHash config → record.transferId = other.transferId
  assets : ∀ record ∈ db.outgoing.rows, record.unsent = true →
    (getAsset record.asset.val).isSome = true

/-- The id of the report that the record was broadcast. -/
def broadcastId (config : MockChain.Config) (record : OutgoingTransaction) : EventId :=
  reportId .txBroadcasted record.transferId ((record.nodeHash config).val ++ ":broadcast")

/-- The record once it was broadcast. -/
def OutgoingTransaction.onItsWay (config : MockChain.Config) (now : Nat)
    (record : OutgoingTransaction) : OutgoingTransaction :=
  record.broadcastedAs now (record.nodeHash config)

@[simp] theorem OutgoingTransaction.onItsWay_transferId (config : MockChain.Config)
    (now : Nat) (record : OutgoingTransaction) :
    (record.onItsWay config now).transferId = record.transferId := rfl

/-- The row was handed to the node, and this was written down. -/
structure SentRow (config : MockChain.Config) (scope : Scope) (row : OutgoingTransaction)
    (state state' : MockChain.State × Db) : Prop where
  chain : state'.1 = (submit config false row.sendRequest state.1).2
  outgoing : state'.2.outgoing = state.2.outgoing.replace (row.onItsWay config scope.now)
  outbox : state.2.outbox.Grows state'.2.outbox
  announced : state'.2.outbox.Has (broadcastId config row)

section Row

variable {config : MockChain.Config} {settings : Settings} {scope : Scope}
  {row : OutgoingTransaction} {chain : MockChain.State} {db : Db}

theorem submit_row (config : MockChain.Config) (row : OutgoingTransaction)
    (hup : assertRpcUp chain = .ok ()) :
    (submit config false row.sendRequest chain).1 = .ok (row.nodeHash config) ∧
      ∃ tx ∈ (submit config false row.sendRequest chain).2.transactions.rows,
        tx.hash = row.nodeHash config := by
  have hpositive := row.amountPositive
  have hfits : ((row.amount : Nat) : Int).natAbs < 10 ^ 78 := row.amountFits
  exact MockChain.submit_answers hup (by simpa [OutgoingTransaction.sendRequest] using hpositive)
    hfits (varchar_ok row.fromAddress.property.1 row.fromAddress.property.2)
    (varchar_ok row.toAddress.property.1 row.toAddress.property.2)

/-- The hash of another record would be the digest of its own id. -/
theorem Db.Sendable.fresh (h : db.Sendable config) (hrow : row ∈ db.outgoing.rows) :
    ∀ other ∈ db.outgoing.rows, other.transferId ≠ row.transferId →
      other.txHash ≠ some (row.nodeHash config) := by
  intro other hother hne hshared
  exact hne (h.distinct row hrow other hother (h.hashed other hother _ hshared)).symm

/-- While the node answers, a claimed row is sent. -/
theorem broadcastOne_sends (settings : Settings) (hscope : scope.Generated)
    (hup : assertRpcUp chain = .ok ()) (h : db.Sendable config)
    (hrow : db.outgoing.find? row.transferId = some row) (hunsent : row.unsent = true) :
    (∃ outcome, (broadcastOne (MockChain.adapter config) settings scope row (chain, db)).1 =
        some outcome) ∧
      SentRow config scope row (chain, db)
        (broadcastOne (MockChain.adapter config) settings scope row (chain, db)).2 := by
  obtain ⟨hanswer, _⟩ := submit_row config row hup
  have hmem := Table.mem_of_find? hrow
  have hopen : row.status ≠ .confirmed ∧ row.status ≠ .failed := by
    simp only [OutgoingTransaction.unsent, Bool.or_eq_true, decide_eq_true_eq] at hunsent
    rcases hunsent with hstatus | hstatus
    · simp [hstatus]
    · simp [hstatus]
  obtain ⟨outcome, db', hcommit, _⟩ :=
    (recordBroadcast_succeeds hscope hrow (h.assets row hmem hunsent)
      (h.fresh hmem)).commit_returns
  have hcommit' : commit (broadcastTx settings
      (correlationScope scope (row.correlationId.map Subtype.val)) row
      (.ok (row.nodeHash config))) db = (.ok outcome, db') := hcommit
  unfold broadcastOne
  simp only [MockChain.adapter]
  cases hresult : submit config false row.sendRequest chain with
  | mk answer chain' =>
      rw [hresult] at hanswer
      obtain rfl : answer = .ok (row.nodeHash config) := hanswer
      simp only [hcommit']
      refine ⟨⟨outcome, rfl⟩, ?_⟩
      rcases (broadcastTx_ensures settings _ row _ db).commit_ok hcommit' with
        ⟨hnone, _⟩ | ⟨record, hrecord, hanswered⟩
      · rw [hrow] at hnone
        cases hnone
      · rw [hrow, Option.some.injEq] at hrecord
        subst hrecord
        cases hanswered with
        | closed txHash hstatus => exact (not_or.mpr hopen hstatus).elim
        | broadcast txHash _ payload hpayload db' hannounces =>
            obtain ⟨outbox, houtbox, rfl⟩ := hannounces
            have hid : (broadcastedEvent (correlationScope scope
                (row.correlationId.map Subtype.val)) row row (row.nodeHash config)
                payload).eventId = broadcastId config row := by
              rw [broadcastedEvent, String.append_assoc]
              exact newEvent_named _
            refine ⟨by rw [hresult], rfl, enqueueEvent_grows houtbox, ?_⟩
            rw [← hid]
            exact (enqueueEvent_has houtbox).1
        | confirmed answer habandoned hstatus => cases habandoned
        | failed answer habandoned hopen reason code payload hpayload db' hannounces =>
            cases habandoned
        | retried answer hretriable reason => cases hretriable

end Row

/-! ## A run of the broadcaster -/

/-- The rows were handed to the node one after another, and this was written down. -/
structure SentRows (config : MockChain.Config) (scope : Scope)
    (rows : List OutgoingTransaction) (state state' : MockChain.State × Db) : Prop where
  fed : MockChain.Fed (rows.map (·.nodeHash config)) state.1 state'.1
  outgoing : state'.2.outgoing.rows = state.2.outgoing.rows.map fun r =>
    if r ∈ rows then r.onItsWay config scope.now else r
  outbox : state.2.outbox.Grows state'.2.outbox
  announced : ∀ row ∈ rows, state'.2.outbox.Has (broadcastId config row)

theorem Db.Sendable.same {config : MockChain.Config} {db db' : Db} (h : db.Sendable config)
    (hashed : db'.Hashed config)
    (hrows : ∀ row' ∈ db'.outgoing.rows, ∃ row ∈ db.outgoing.rows,
      row'.transferId = row.transferId ∧ row'.asset = row.asset ∧
        (row'.unsent = true → row.unsent = true)) : db'.Sendable config where
  hashed := hashed
  distinct := by
    intro row' hrow' other' hother' hsame
    obtain ⟨row, hrow, hid, _⟩ := hrows row' hrow'
    obtain ⟨other, hother, hid', _⟩ := hrows other' hother'
    unfold OutgoingTransaction.nodeHash at hsame
    rw [hid, hid'] at hsame ⊢
    exact h.distinct row hrow other hother hsame
  assets := by
    intro row' hrow' hunsent
    obtain ⟨row, hrow, _, hasset, hbefore⟩ := hrows row' hrow'
    rw [hasset]
    exact h.assets row hrow (hbefore hunsent)

section Rows

variable {config : MockChain.Config} {settings : Settings} {scope : Scope}
  {row : OutgoingTransaction} {state state' : MockChain.State × Db}

theorem SentRow.sendable (h : SentRow config scope row state state')
    (hsendable : state.2.Sendable config)
    (hrow : state.2.outgoing.find? row.transferId = some row) :
    state'.2.Sendable config := by
  have hkey := row.onItsWay_transferId config scope.now
  apply hsendable.same (hsendable.hashed.replaced hrow hkey h.outgoing (Or.inr rfl))
  intro row' hrow'
  rw [← hkey] at hrow
  rw [h.outgoing, Table.mem_replace _ hrow] at hrow'
  rcases hrow' with rfl | ⟨hold, _⟩
  · exact ⟨row, Table.mem_of_find? hrow, rfl, rfl, by
      simp [OutgoingTransaction.onItsWay, OutgoingTransaction.broadcastedAs,
        OutgoingTransaction.unsent]⟩
  · exact ⟨row', hold, rfl, rfl, fun hunsent => hunsent⟩

theorem broadcastAll_sends (settings : Settings) (state : MockChain.State × Db)
    (hscope : scope.Generated) {rows : List OutgoingTransaction}
    (hnodup : (rows.map OutgoingTransaction.transferId).Nodup)
    (hup : assertRpcUp state.1 = .ok ()) (hsendable : state.2.Sendable config)
    (hrows : ∀ row ∈ rows, state.2.outgoing.find? row.transferId = some row ∧
      row.unsent = true) :
    (broadcastAll (MockChain.adapter config) settings scope rows state).1 = .completed ∧
      SentRows config scope rows state
        (broadcastAll (MockChain.adapter config) settings scope rows state).2 := by
  induction rows generalizing state with
  | nil =>
      exact ⟨rfl, .refl state.1, by simp [broadcastAll, visitAll], .refl state.2.outbox,
        by simp⟩
  | cons row rest ih =>
      obtain ⟨hrow, hunsent⟩ := hrows row List.mem_cons_self
      obtain ⟨hfresh, hrest⟩ := List.nodup_cons.mp hnodup
      obtain ⟨⟨outcome, houtcome⟩, hsent⟩ :=
        broadcastOne_sends settings hscope hup hsendable hrow hunsent
      obtain ⟨_, htaken⟩ := submit_row config row hup
      unfold broadcastAll at ih ⊢
      rw [visitAll_visited houtcome]
      generalize (broadcastOne (MockChain.adapter config) settings scope row state).2 = mid
        at hsent ⊢
      have hup' : assertRpcUp mid.1 = .ok () := by
        rw [hsent.chain, MockChain.assertRpcUp_same (MockChain.submit_faults config false
          row.sendRequest state.1)]
        exact hup
      have hothers : ∀ r ∈ rest, mid.2.outgoing.find? r.transferId = some r ∧
          r.unsent = true := by
        intro r hr
        obtain ⟨hfind, hunsent⟩ := hrows r (List.mem_cons_of_mem row hr)
        refine ⟨?_, hunsent⟩
        rw [hsent.outgoing, Table.find?_replace_of_ne _ (row.onItsWay config scope.now)]
        · exact hfind
        · intro hsame
          exact hfresh (List.mem_map.mpr ⟨r, hr, hsame⟩)
      obtain ⟨hcompleted, hlater⟩ :=
        ih mid hrest hup' (hsent.sendable hsendable hrow) hothers
      refine ⟨hcompleted, ?_, ?_, hsent.outbox.trans hlater.outbox, ?_⟩
      · have hfed := hlater.fed
        rw [hsent.chain] at hfed
        exact hfed.cons htaken
      · rw [hlater.outgoing, hsent.outgoing, Table.replace_rows, List.map_map]
        apply List.map_congr_left
        intro r hr
        simp only [Function.comp]
        by_cases hkey : r.transferId = row.transferId
        · have hsame := state.2.outgoing.eq_of_mem_of_key_eq hr (Table.mem_of_find? hrow) hkey
          have hdone : row.onItsWay config scope.now ∉ rest := by
            intro hmem
            exact hfresh (List.mem_map.mpr ⟨_, hmem, rfl⟩)
          rw [hsame, if_pos List.mem_cons_self, OutgoingTransaction.onItsWay_transferId,
            if_pos rfl, if_neg hdone]
        · have hother : r ≠ row := fun hsame => hkey (by rw [hsame])
          rw [OutgoingTransaction.onItsWay_transferId, if_neg hkey]
          simp only [List.mem_cons, hother, false_or]
      · intro r hr
        rcases List.mem_cons.mp hr with rfl | hr
        · exact hlater.outbox.has hsent.announced
        · exact hlater.announced r hr

end Rows

/-- The due records were claimed and sent. -/
structure SentDue (config : MockChain.Config) (scope : Scope) (limit : Nat)
    (w w' : TransferWorld) : Prop where
  fed : MockChain.Fed ((dueRecords scope.now limit w.db).map (·.nodeHash config)) w.chain
    w'.chain
  outgoing : w'.db.outgoing.rows = w.db.outgoing.rows.map fun r =>
    if r ∈ dueRecords scope.now limit w.db then (r.claimed scope.now).onItsWay config scope.now
    else r
  outbox : w.db.outbox.Grows w'.db.outbox
  announced : ∀ record ∈ dueRecords scope.now limit w.db,
    w'.db.outbox.Has (broadcastId config record)
  sendable : w'.db.Sendable config

theorem OutgoingTransaction.unsent_of_due {now : Nat} {record : OutgoingTransaction}
    (h : record.due now = true) : record.unsent = true := by
  unfold OutgoingTransaction.due at h
  exact (Bool.and_eq_true _ _ ▸ h).1

section Run

variable {config : MockChain.Config} {settings : Settings} {scope : Scope} {limit now : Nat}
  {db : Db} {w : TransferWorld}

theorem claimDue_sendable (h : db.Sendable config) :
    (claimDue now limit db).2.Sendable config := by
  apply h.same (claimDue_hashed now limit h.hashed)
  intro row' hrow'
  obtain ⟨row, hrow, rfl⟩ := List.mem_map.mp hrow'
  refine ⟨row, hrow, ?_⟩
  split
  next hdue =>
    exact ⟨rfl, rfl, fun _ => OutgoingTransaction.unsent_of_due (mem_dueRecords hdue).2⟩
  next => exact ⟨rfl, rfl, fun hunsent => hunsent⟩

theorem SentRows.sendable {rows : List OutgoingTransaction}
    {state state' : MockChain.State × Db} (h : SentRows config scope rows state state')
    (hsendable : state.2.Sendable config) : state'.2.Sendable config := by
  have hback : ∀ row' ∈ state'.2.outgoing.rows, ∃ row ∈ state.2.outgoing.rows,
      row' = row ∨ row' = row.onItsWay config scope.now := by
    intro row' hrow'
    rw [h.outgoing] at hrow'
    obtain ⟨row, hrow, rfl⟩ := List.mem_map.mp hrow'
    refine ⟨row, hrow, ?_⟩
    split
    · exact Or.inr rfl
    · exact Or.inl rfl
  apply hsendable.same
  · intro row' hrow' txHash hstored
    obtain ⟨row, hrow, hcases⟩ := hback row' hrow'
    rcases hcases with rfl | rfl
    · exact hsendable.hashed row' hrow txHash hstored
    · exact (Option.some.inj hstored).symm
  · intro row' hrow'
    obtain ⟨row, hrow, hcases⟩ := hback row' hrow'
    refine ⟨row, hrow, ?_⟩
    rcases hcases with rfl | rfl
    · exact ⟨rfl, rfl, fun hunsent => hunsent⟩
    · refine ⟨rfl, rfl, ?_⟩
      intro hunsent
      cases hunsent

/-- While the node answers, a run of the broadcaster sends what is due. -/
theorem broadcast_sends (hscope : scope.Generated) (hup : assertRpcUp w.chain = .ok ())
    (hsendable : w.db.Sendable config) :
    SentDue config scope limit w
      (TransferWorld.step config settings (.broadcast scope limit) w) := by
  have hids : ((claimDue scope.now limit w.db).1.map OutgoingTransaction.transferId).Nodup := by
    simp only [claimDue, List.map_map]
    exact WorkerPair.dueRecords_nodup scope.now limit w.db
  have hrows : ∀ row ∈ (claimDue scope.now limit w.db).1,
      (claimDue scope.now limit w.db).2.outgoing.find? row.transferId = some row ∧
        row.unsent = true := by
    intro row hrow
    obtain ⟨record, _, rfl, hfind⟩ := WorkerPair.claimDue_claimed scope.now limit w.db hrow
    exact ⟨hfind, rfl⟩
  obtain ⟨_, hsent⟩ := broadcastAll_sends settings
    (w.chain, (claimDue scope.now limit w.db).2) hscope hids hup
    (claimDue_sendable hsendable) hrows
  have hsendable' := hsent.sendable (claimDue_sendable hsendable)
  simp only [TransferWorld.step, broadcastOnce]
  refine ⟨?_, ?_, hsent.outbox, ?_, hsendable'⟩
  · have hfed := hsent.fed
    simp only [claimDue, List.map_map] at hfed ⊢
    exact hfed
  · rw [hsent.outgoing]
    have hclaimed : (claimDue scope.now limit w.db).2.outgoing.rows =
        w.db.outgoing.rows.map fun r =>
          if r ∈ dueRecords scope.now limit w.db then r.claimed scope.now else r := rfl
    rw [hclaimed, List.map_map]
    apply List.map_congr_left
    intro r hr
    simp only [Function.comp]
    by_cases hdue : r ∈ dueRecords scope.now limit w.db
    · rw [if_pos hdue, if_pos hdue]
      exact if_pos (List.mem_map_of_mem hdue)
    · rw [if_neg hdue, if_neg hdue]
      apply if_neg
      intro hmem
      -- the claimed row with this id would be this record
      obtain ⟨other, hother, hsame⟩ := List.mem_map.mp hmem
      have hkey : other.transferId = r.transferId := by
        rw [← hsame]
        rfl
      exact hdue (w.db.outgoing.eq_of_mem_of_key_eq (mem_dueRecords hother).1 hr hkey ▸ hother)
  · intro record hrecord
    exact hsent.announced (record.claimed scope.now) (List.mem_map_of_mem hrecord)

end Run

/-! ## In turn -/

/-- The number of records which are still to be sent. -/
def Db.backlog (db : Db) : Nat := db.outgoing.rows.countP (·.unsent)

/-- The record was sent, this was reported, and the node has the transaction. -/
structure OnItsWay (config : MockChain.Config) (record : OutgoingTransaction)
    (w : TransferWorld) : Prop where
  stored : ∃ now, (record.claimed now).onItsWay config now ∈ w.db.outgoing.rows
  announced : w.db.outbox.Has (broadcastId config record)
  live : Live (record.nodeHash config) w.chain

/-- The node answers and takes the transaction of the record. -/
structure Ready (config : MockChain.Config) (record : OutgoingTransaction)
    (w : TransferWorld) : Prop where
  up : assertRpcUp w.chain = .ok ()
  sendable : w.db.Sendable config
  usable : Usable (record.nodeHash config) w.chain

/-- The broadcaster moves work from the records to the mempool, and nothing else. -/
structure Steady (w w' : TransferWorld) : Prop where
  work : mempool w'.chain + w'.db.backlog ≤ mempool w.chain + w.db.backlog
  faults : w'.chain.faults = w.chain.faults
  blocks : w'.chain.blocks = w.chain.blocks
  consistent : MockChain.Consistent w.chain → MockChain.Consistent w'.chain

theorem Steady.refl (w : TransferWorld) : Steady w w := ⟨le_rfl, rfl, rfl, fun h => h⟩

theorem Steady.trans {w w' w'' : TransferWorld} (h : Steady w w') (h' : Steady w' w'') :
    Steady w w'' :=
  ⟨h'.work.trans h.work, h'.faults.trans h.faults, h'.blocks.trans h.blocks,
    fun hw => h'.consistent (h.consistent hw)⟩

theorem OutgoingTransaction.due_later {now now' : Nat} {record : OutgoingTransaction}
    (h : record.due now = true) (hle : now ≤ now') : record.due now' = true := by
  unfold OutgoingTransaction.due at h ⊢
  rw [Bool.and_eq_true] at h ⊢
  refine ⟨h.1, ?_⟩
  cases hnext : record.nextAttemptAt with
  | none => rfl
  | some time =>
      have hready := h.2
      simp only [hnext, decide_eq_true_eq] at hready ⊢
      omega

section Turn

variable {config : MockChain.Config} {settings : Settings} {scope : Scope} {limit since : Nat}
  {record : OutgoingTransaction} {w w' : TransferWorld}

theorem SentDue.backlog (h : SentDue config scope limit w w') :
    w'.db.backlog + (dueRecords scope.now limit w.db).length = w.db.backlog := by
  have hsubset : dueRecords scope.now limit w.db ⊆ w.db.outgoing.rows :=
    fun r hr => (mem_dueRecords hr).1
  have hcount := countP_mem_of_subset hsubset
    (WorkerPair.dueRecords_nodup scope.now limit w.db).of_map w.db.outgoing.nodup.of_map
  rw [Db.backlog, Db.backlog, h.outgoing, ← hcount]
  apply countP_map_add
  intro r
  by_cases hdue : r ∈ dueRecords scope.now limit w.db
  · have hunsent := OutgoingTransaction.unsent_of_due (mem_dueRecords hdue).2
    have hsent : ((r.claimed scope.now).onItsWay config scope.now).unsent = false := rfl
    simp [hdue, hunsent, hsent]
  · simp [hdue]

theorem SentDue.steady (h : SentDue config scope limit w w') : Steady w w' where
  work := by
    have hfed := h.fed.mempool
    have hbacklog := h.backlog
    rw [List.length_map] at hfed
    omega
  faults := h.fed.faults
  blocks := h.fed.blocks
  consistent := h.fed.consistent

theorem SentDue.ready (h : SentDue config scope limit w w') (hw : Ready config record w) :
    Ready config record w' where
  up := (MockChain.assertRpcUp_same h.fed.faults).trans hw.up
  sendable := h.sendable
  usable := h.fed.usable _ hw.usable

/-- What is on its way is not due. -/
theorem SentDue.onItsWay (h : SentDue config scope limit w w') (hw : OnItsWay config record w) :
    OnItsWay config record w' where
  stored := by
    obtain ⟨now, hstored⟩ := hw.stored
    refine ⟨now, ?_⟩
    have hidle : (record.claimed now).onItsWay config now ∉
        dueRecords scope.now limit w.db := by
      intro hdue
      have hunsent := OutgoingTransaction.unsent_of_due (mem_dueRecords hdue).2
      cases hunsent
    rw [h.outgoing]
    exact List.mem_map.mpr ⟨_, hstored, if_neg hidle⟩
  announced := h.outbox.has hw.announced
  live := h.fed.live _ hw.live

/-- A record which is due is sent in the run, or the run has no room for it. -/
theorem SentDue.turn (h : SentDue config scope limit w w') (hw : Ready config record w)
    (hrecord : record ∈ w.db.outgoing.rows) (hdue : record.due scope.now = true) :
    OnItsWay config record w' ∨
      (record ∈ w'.db.outgoing.rows ∧ w'.db.backlog + limit ≤ w.db.backlog) := by
  by_cases htaken : record ∈ dueRecords scope.now limit w.db
  · left
    refine ⟨⟨scope.now, ?_⟩, h.announced record htaken, ?_⟩
    · rw [h.outgoing]
      exact List.mem_map.mpr ⟨record, hrecord, if_pos htaken⟩
    · exact h.fed.sent _ (List.mem_map_of_mem htaken) hw.usable
  · right
    have hfull : (dueRecords scope.now limit w.db).length = limit := by
      apply length_take_of_waiting ?_ htaken
      rw [List.mem_insertionSort]
      exact List.mem_filter.mpr ⟨hrecord, hdue⟩
    refine ⟨?_, ?_⟩
    · rw [h.outgoing]
      exact List.mem_map.mpr ⟨record, hrecord, if_neg htaken⟩
    · have hbacklog := h.backlog
      omega

theorem backlog_positive (hrecord : record ∈ w.db.outgoing.rows)
    (hdue : record.due since = true) : 0 < w.db.backlog :=
  List.countP_pos_iff.mpr ⟨record, hrecord, OutgoingTransaction.unsent_of_due hdue⟩

end Turn

namespace TransferWorld

/-- One run of the broadcaster. -/
def broadcast (config : MockChain.Config) (settings : Settings) (limit : Nat) (scope : Scope)
    (w : TransferWorld) : TransferWorld :=
  step config settings (.broadcast scope limit) w

/-- The run draws proper ids, and does not begin before the record is due. -/
def Timely (since : Nat) (_ : TransferWorld) (scope : Scope) : Prop :=
  scope.Generated ∧ since ≤ scope.now

/-- While the node answers, enough runs of the broadcaster send what was due at first. -/
theorem due_transfers_are_broadcast {config : MockChain.Config} {settings : Settings}
    {record : OutgoingTransaction} {w : TransferWorld} (hready : Ready config record w)
    (hrecord : record ∈ w.db.outgoing.rows) {since : Nat} (hdue : record.due since = true)
    {limit : Nat} {scopes : List Scope}
    (htimely : AdmittedRun (broadcast config settings limit) (Timely since) w scopes)
    (hlong : w.db.backlog ≤ limit * scopes.length) :
    OnItsWay config record (runSteps (broadcast config settings limit) w scopes) ∧
      Steady w (runSteps (broadcast config settings limit) w scopes) := by
  have hsends : ∀ v scope, Ready config record v → Timely since v scope →
      SentDue config scope limit v (broadcast config settings limit scope v) :=
    fun v scope hv htimely => broadcast_sends htimely.1 hv.up hv.sendable
  constructor
  · apply served_in_turn (Ready config record) (fun v => record ∈ v.db.outgoing.rows)
      (fun v => v.db.backlog) ?_ ?_ ?_ ?_ hready (Or.inr hrecord) htimely hlong
    · exact fun v scope hv htimely => (hsends v scope hv htimely).ready hv
    · intro v scope hv htimely hwaits
      exact (hsends v scope hv htimely).turn hv hwaits
        (OutgoingTransaction.due_later hdue htimely.2)
    · exact fun v scope hv htimely hdone => (hsends v scope hv htimely).onItsWay hdone
    · exact fun v _ hwaits => backlog_positive hwaits hdue
  · have hboth := htimely.invariant (I := fun v => Ready config record v ∧ Steady w v)
      (fun v scope hv htimely => ⟨(hsends v scope hv.1 htimely).ready hv.1,
        hv.2.trans (hsends v scope hv.1 htimely).steady⟩) ⟨hready, .refl w⟩
    exact hboth.2

end TransferWorld

end Blockchain

end CryptoWallet
