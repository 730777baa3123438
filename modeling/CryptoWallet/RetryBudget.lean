import CryptoWallet.WatcherRuns
import CryptoWallet.WorkerPair

/-!
# The retry budget

A claim counts the attempt; the budget is compared when the outcome is recorded and
when a stuck transaction is requeued.  A row whose outcome is not recorded stays
claimable, whatever its count is.
-/

namespace CryptoWallet.Blockchain

open Tx

def OutgoingTransaction.Claimable (record : OutgoingTransaction) : Prop :=
  record.status = .created ∨ record.status = .pending

/-- The transaction which records the answer does not raise. -/
def OutgoingTransaction.Recordable (settings : Settings) (row : OutgoingTransaction)
    (answer : Except ChainError ChainHash) (db : Db) : Prop :=
  match answer with
  | .ok txHash => (getAsset row.asset.val).isSome = true ∧
      ∀ other ∈ db.outgoing.rows, other.transferId ≠ row.transferId →
        other.txHash ≠ some txHash
  | .error error => '\x00' ∉ (cutReason error.message).toList ∧
      (retriable settings row answer = true ∨ (getAsset row.asset.val).isSome = true)

section Recording

variable {settings : Settings} {scope : Scope} {row : OutgoingTransaction} {db : Db}

theorem recordFailure_succeeds (hscope : scope.Generated)
    (hrow : db.outgoing.find? row.transferId = some row) {reason : String}
    (hreason : '\x00' ∉ (cutReason reason).toList)
    (hasset : (getAsset row.asset.val).isSome = true) (code : String) :
    Ensures (recordFailure (WorkerPair.rowScope scope row) row reason code) db
      (fun _ _ => True) fun _ => False := by
  unfold recordFailure
  apply Ensures.query_bind
  rw [hrow]
  dsimp only
  split
  · exact Ensures.pure trivial
  · have hfailed : (getAsset (row.failedBroadcast (cutReason reason)).asset.val).isSome =
        true := hasset
    apply Ensures.bind (announceFailure_succeeds hscope hfailed false hreason code _ db)
    intro _ _ _
    exact Ensures.pure trivial

theorem scheduleRetry_succeeds (now : Nat) {reason : String}
    (hreason : '\x00' ∉ (cutReason reason).toList) :
    Ensures (scheduleRetry now row reason) db (fun _ _ => True) fun _ => False := by
  have hbound : bindString (cutReason reason) = .ok (cutReason reason) := by
    simp [bindString, hreason]
  unfold scheduleRetry
  apply Ensures.query_bind
  split
  · exact Ensures.pure trivial
  · rw [hbound]
    apply Ensures.orRaise_bind ?_ (fun _ he => by cases he)
    intro _ _
    apply Ensures.modifyDb_bind
    exact Ensures.pure trivial

theorem recordBroadcast_succeeds (hscope : scope.Generated)
    (hrow : db.outgoing.find? row.transferId = some row) {txHash : ChainHash}
    (hasset : (getAsset row.asset.val).isSome = true)
    (hunique : ∀ other ∈ db.outgoing.rows, other.transferId ≠ row.transferId →
      other.txHash ≠ some txHash) :
    Ensures (recordBroadcast (WorkerPair.rowScope scope row) row txHash) db
      (fun _ _ => True) fun _ => False := by
  obtain ⟨asset, hfound⟩ := Option.isSome_iff_exists.mp hasset
  have hpayload : ∃ payload, broadcastedPayload row txHash = .ok payload := by
    simp [broadcastedPayload, hfound]
  obtain ⟨payload, hpayload⟩ := hpayload
  have hname : ∃ stored, varchar 64 EventType.txBroadcasted.name = .ok stored :=
    ⟨_, varchar_ok (by decide) (by decide)⟩
  unfold recordBroadcast
  apply Ensures.query_bind
  rw [hrow]
  dsimp only
  split
  · exact Ensures.pure trivial
  · apply Ensures.query_bind
    split
    next htaken =>
      simp only [List.any_eq_true, Bool.and_eq_true, decide_eq_true_eq] at htaken
      obtain ⟨other, hother, hne, hsame⟩ := htaken
      exact (hunique other hother hne hsame).elim
    next =>
      rw [hpayload]
      refine Ensures.orRaise_ok ?_
      apply Ensures.modifyDb_bind
      apply Ensures.bind (enqueue_succeeds (transferEvent_fits hscope hname payload _
        row.correlationId) _)
      intro _ _ _
      exact Ensures.pure trivial

theorem broadcastTx_succeeds {answer : Except ChainError ChainHash}
    (hscope : scope.Generated) (hrow : db.outgoing.find? row.transferId = some row)
    (h : row.Recordable settings answer db) :
    Ensures (broadcastTx settings (WorkerPair.rowScope scope row) row answer) db
      (fun _ _ => True) fun _ => False := by
  cases answer with
  | ok txHash => exact recordBroadcast_succeeds hscope hrow h.1 h.2
  | error error =>
      obtain ⟨hreason, hlisted⟩ := h
      cases error with
      | transactionRejected message =>
          have hasset : (getAsset row.asset.val).isSome = true := by
            simpa [retriable] using hlisted
          exact recordFailure_succeeds hscope hrow hreason hasset _
      | rpcUnavailable message | other message =>
          dsimp only [broadcastTx]
          split
          next => exact scheduleRetry_succeeds _ hreason
          next hattempts =>
            have hasset : (getAsset row.asset.val).isSome = true := by
              simpa [retriable, hattempts] using hlisted
            exact recordFailure_succeeds hscope hrow hreason hasset _

end Recording

/-! ## What a write leaves of the budget -/

section Writes

variable {settings : Settings} {scope : Scope} {db db' : Db} {record : OutgoingTransaction}

/-- The record keeps its count, and is claimable again only with attempts left. -/
def Spared (settings : Settings) (record record' : OutgoingTransaction) : Prop :=
  record'.attempts = record.attempts ∧
    (record'.Claimable → record.attempts < settings.broadcastMaxAttempts)

theorem Spared.of_status {record' : OutgoingTransaction}
    (hattempts : record'.attempts = record.attempts) (hcreated : record'.status ≠ .created)
    (hpending : record'.status ≠ .pending) : Spared settings record record' :=
  ⟨hattempts, fun hclaimable => (hclaimable.elim hcreated hpending).elim⟩

theorem answered_spared {answer : Except ChainError ChainHash}
    (hrecord : db.outgoing.find? record.transferId = some record)
    (h : Answered settings scope record db record answer db') :
    ∃ record', db'.outgoing.find? record.transferId = some record' ∧
      Spared settings record record' := by
  have hwritten : ∀ record', record'.transferId = record.transferId →
      (db.outgoing.replace record').find? record.transferId = some record' :=
    fun record' hkey => Table.find?_replace_of_key _ hkey hrecord
  cases h with
  | closed txHash hstatus =>
      refine ⟨record, hrecord, .of_status rfl ?_ ?_⟩
      all_goals
        intro hopen
        simp [hopen] at hstatus
  | broadcast txHash hopen payload hpayload db' hannounces =>
      obtain ⟨outbox, _, rfl⟩ := hannounces
      exact ⟨_, hwritten (record.broadcastedAs scope.now txHash) rfl,
        .of_status rfl (by simp [OutgoingTransaction.broadcastedAs])
          (by simp [OutgoingTransaction.broadcastedAs])⟩
  | confirmed answer habandoned hstatus =>
      exact ⟨record, hrecord, .of_status rfl (by simp [hstatus]) (by simp [hstatus])⟩
  | failed answer habandoned hopen reason code payload hpayload db' hannounces =>
      obtain ⟨outbox, _, rfl⟩ := hannounces
      exact ⟨_, hwritten (record.failedBroadcast reason) rfl,
        .of_status rfl
          (by simp [OutgoingTransaction.failedBroadcast, OutgoingTransaction.failedFor])
          (by simp [OutgoingTransaction.failedBroadcast, OutgoingTransaction.failedFor])⟩
  | retried answer hretriable reason =>
      refine ⟨_, hwritten (record.retried scope.now record.attempts reason) rfl, rfl, ?_⟩
      intro _
      cases answer with
      | ok txHash => simp [retriable] at hretriable
      | error error =>
          cases error with
          | transactionRejected message => simp [retriable] at hretriable
          | rpcUnavailable message | other message => simpa [retriable] using hretriable

theorem checked_spared {head : Nat} {seen : SeenRecord} {receipt : Option TxReceipt}
    (hrecord : db.outgoing.find? record.transferId = some record)
    (hstatus : record.status = .broadcasted ∨ record.status = .confirmed)
    (hseen : record.seen = some seen)
    (h : Checked settings scope head seen db record receipt db') :
    ∃ record', db'.outgoing.find? record.transferId = some record' ∧
      Spared settings record record' := by
  have hwritten : ∀ record', record'.transferId = record.transferId →
      (db.outgoing.replace record').find? record.transferId = some record' :=
    fun record' hkey => Table.find?_replace_of_key _ hkey hrecord
  have hsame : ∀ record' : OutgoingTransaction, record'.attempts = record.attempts →
      record'.status = record.status → Spared settings record record' := by
    intro record' hattempts hunchanged
    apply Spared.of_status hattempts
    all_goals
      rw [hunchanged]
      rcases hstatus with hstatus | hstatus <;> simp [hstatus]
  cases h with
  | reverted receipt hreverted hopen payload hpayload db' hannounces =>
      obtain ⟨outbox, _, rfl⟩ := hannounces
      exact ⟨_, hwritten ((record.minedIn head receipt).failedFor revertReason) rfl,
        .of_status rfl (by simp [OutgoingTransaction.failedFor])
          (by simp [OutgoingTransaction.failedFor])⟩
  | confirmed receipt hripe payload hpayload db' hannounces =>
      obtain ⟨outbox, _, rfl⟩ := hannounces
      exact ⟨_, hwritten (record.minedIn head receipt).confirmed rfl,
        .of_status rfl (by simp [OutgoingTransaction.confirmed])
          (by simp [OutgoingTransaction.confirmed])⟩
  | mined receipt hreverted hripe =>
      exact ⟨_, hwritten (record.minedIn head receipt) rfl, hsame _ rfl rfl⟩
  | reorged hseen payload hpayload dedupeKey db' hannounces =>
      obtain ⟨outbox, _, rfl⟩ := hannounces
      exact ⟨_, hwritten record.reorged rfl, .of_status rfl
        (by simp [OutgoingTransaction.reorged]) (by simp [OutgoingTransaction.reorged])⟩
  | waiting hnot hstuck => exact ⟨record, hrecord, hsame record rfl rfl⟩
  | requeued hnot hstuck hattempts =>
      obtain ⟨txHash, _, rfl⟩ := Option.map_eq_some_iff.mp hseen
      exact ⟨_, hwritten (record.requeued scope.now) rfl, rfl, fun _ => hattempts⟩
  | abandoned hnot hstuck hattempts reason payload hpayload db' hannounces =>
      obtain ⟨outbox, _, rfl⟩ := hannounces
      exact ⟨_, hwritten (record.failedFor reason) rfl,
        .of_status rfl (by simp [OutgoingTransaction.failedFor])
          (by simp [OutgoingTransaction.failedFor])⟩

/-- A request adds at most a record without attempts. -/
theorem dispatched_new {envelope : Envelope} (h : Dispatched scope envelope db db')
    {transferId : Uuid} {record' : OutgoingTransaction}
    (hnone : db.outgoing.find? transferId = none)
    (hrecord' : db'.outgoing.find? transferId = some record') : record'.attempts = 0 := by
  have hnot : db.outgoing.find? transferId ≠ some record' := by
    rw [hnone]
    simp
  cases h with
  | duplicate => exact (hnot hrecord').elim
  | ignored processedEvents => exact (hnot hrecord').elim
  | accepted processedEvents hrequested db' haccepted =>
      cases haccepted with
      | duplicate proposed hproposed htaken => exact (hnot hrecord').elim
      | accepted proposed hproposed hknown outgoing hinsert =>
          dsimp only at hrecord'
          rw [Table.find?_insert? hinsert] at hrecord'
          split at hrecord'
          · rw [← Option.some.inj hrecord']
            exact (proposedOutgoing_untouched hproposed).attempts
          · exact (hnot hrecord').elim
      | unknown proposed hproposed hunknown outgoing hinsert failed hpayload db' hannounces =>
          obtain ⟨outbox, _, rfl⟩ := hannounces
          have hstored : outgoing.find? proposed.transferId = some proposed :=
            (Table.find?_insert? hinsert _).trans (if_pos rfl)
          dsimp only at hrecord'
          by_cases hid : transferId = proposed.transferId
          · subst hid
            have hkey : (proposed.failedFor unknownAddressReason).transferId =
                proposed.transferId := rfl
            rw [Table.find?_replace_of_key _ hkey hstored] at hrecord'
            rw [← Option.some.inj hrecord']
            exact (proposedOutgoing_untouched hproposed).attempts
          · have hother : (outgoing.replace
                (proposed.failedFor unknownAddressReason)).find? transferId =
                  outgoing.find? transferId := Table.find?_replace_of_ne outgoing _ hid
            rw [hother, Table.find?_insert? hinsert, if_neg hid] at hrecord'
            exact (hnot hrecord').elim

end Writes

namespace WorkerPair

/-- No round of the broadcaster ends with a row in hand whose attempts are used up. -/
def Spares (settings : Settings) (w : WorkerPair) : PairStep → Prop
  | .crash => ∀ row ∈ w.claimed, row.attempts < settings.broadcastMaxAttempts
  | .record scope => (∀ row ∈ w.claimed, row.attempts < settings.broadcastMaxAttempts) ∨
      (scope.Generated ∧ ∀ row rest answer, w.claimed = row :: rest →
        w.answer = some answer → row.Recordable settings answer w.db)
  | _ => True

/-- The claims of a transfer are its attempts, and a record which can be claimed has
attempts left. -/
structure Budget (settings : Settings) (w : WorkerPair) : Prop where
  orderly : w.Orderly
  counted : ∀ transferId, w.claims.count transferId =
    ((w.db.outgoing.find? transferId).map OutgoingTransaction.attempts).getD 0
  within : ∀ transferId record, w.db.outgoing.find? transferId = some record →
    record.attempts ≤ settings.broadcastMaxAttempts
  left : ∀ transferId record, w.db.outgoing.find? transferId = some record →
    record.Claimable →
      record.attempts < settings.broadcastMaxAttempts ∨ record ∈ w.claimed

theorem Budget.start {settings : Settings} (addresses : Table String Address Address.owner) :
    (start addresses).Budget settings where
  orderly := .start addresses
  counted := by simp [WorkerPair.start, Db.empty]
  within := by simp [WorkerPair.start, Db.empty]
  left := by simp [WorkerPair.start, Db.empty]

/-- A write to one record which spares the budget. -/
theorem Budget.written {settings : Settings} {w w' : WorkerPair} (h : w.Budget settings)
    (horderly : w'.Orderly) (hclaims : w'.claims = w.claims)
    {record record' : OutgoingTransaction}
    (hrecord : w.db.outgoing.find? record.transferId = some record)
    (hrecord' : w'.db.outgoing.find? record.transferId = some record')
    (hspared : Spared settings record record')
    (hothers : ∀ transferId, transferId ≠ record.transferId →
      w'.db.outgoing.find? transferId = w.db.outgoing.find? transferId)
    (hclaimed : ∀ row ∈ w.claimed, row.transferId ≠ record.transferId → row ∈ w'.claimed) :
    w'.Budget settings where
  orderly := horderly
  counted := by
    intro transferId
    rw [hclaims, h.counted]
    by_cases hid : transferId = record.transferId
    · rw [hid, hrecord, hrecord', Option.map_some, Option.map_some, hspared.1]
    · rw [hothers transferId hid]
  within := by
    intro transferId row hrow
    by_cases hid : transferId = record.transferId
    · rw [hid, hrecord', Option.some.injEq] at hrow
      rw [← hrow, hspared.1]
      exact h.within _ record hrecord
    · rw [hothers transferId hid] at hrow
      exact h.within transferId row hrow
  left := by
    intro transferId row hrow hclaimable
    by_cases hid : transferId = record.transferId
    · rw [hid, hrecord', Option.some.injEq] at hrow
      subst hrow
      rw [hspared.1]
      exact Or.inl (hspared.2 hclaimable)
    · rw [hothers transferId hid] at hrow
      rcases h.left transferId row hrow hclaimable with hless | hin
      · exact Or.inl hless
      · exact Or.inr (hclaimed row hin (by rw [Table.key_of_find? hrow]; exact hid))

/-- The round of the broadcaster ends while the rows in hand have attempts left. -/
theorem Budget.dropped {settings : Settings} {w : WorkerPair} (h : w.Budget settings)
    (hleft : ∀ row ∈ w.claimed, row.attempts < settings.broadcastMaxAttempts)
    (horderly : ({ w with claimed := [], answer := none } : WorkerPair).Orderly) :
    ({ w with claimed := [], answer := none } : WorkerPair).Budget settings where
  orderly := horderly
  counted := h.counted
  within := h.within
  left := by
    intro transferId record hrecord hclaimable
    rcases h.left transferId record hrecord hclaimable with hless | hin
    · exact Or.inl hless
    · exact Or.inl (hleft record hin)

/-- Only due records are claimed, and nothing is in hand before. -/
theorem Budget.claimed {settings : Settings} {w : WorkerPair} (h : w.Budget settings)
    {now limit : Nat} (hfree : w.claimed = [])
    (horderly : ({ w with
      db := (claimDue now limit w.db).2
      claimed := (claimDue now limit w.db).1
      answer := none
      claims := w.claims ++ (claimDue now limit w.db).1.map (·.transferId) } :
        WorkerPair).Orderly) :
    ({ w with
      db := (claimDue now limit w.db).2
      claimed := (claimDue now limit w.db).1
      answer := none
      claims := w.claims ++ (claimDue now limit w.db).1.map (·.transferId) } :
        WorkerPair).Budget settings := by
  have hleft : ∀ transferId record, w.db.outgoing.find? transferId = some record →
      record.Claimable → record.attempts < settings.broadcastMaxAttempts := by
    intro transferId record hrecord hclaimable
    have hor := h.left transferId record hrecord hclaimable
    rw [hfree] at hor
    exact hor.resolve_right (List.not_mem_nil)
  have hids : (claimDue now limit w.db).1.map OutgoingTransaction.transferId =
      (dueRecords now limit w.db).map OutgoingTransaction.transferId := by
    simp [claimDue, OutgoingTransaction.claimed]
  have hdue : ∀ record ∈ dueRecords now limit w.db,
      w.db.outgoing.find? record.transferId = some record ∧ record.Claimable := by
    intro record hrecord
    obtain ⟨hmem, hopen⟩ := mem_dueRecords hrecord
    refine ⟨w.db.outgoing.find?_of_mem hmem, ?_⟩
    simp only [OutgoingTransaction.due, Bool.and_eq_true, Bool.or_eq_true,
      decide_eq_true_eq] at hopen
    exact hopen.1
  have hrow : ∀ transferId row,
      (claimDue now limit w.db).2.outgoing.find? transferId = some row →
        ∃ record, w.db.outgoing.find? transferId = some record ∧
          ((record ∈ dueRecords now limit w.db ∧ row = record.claimed now) ∨
            (record ∉ dueRecords now limit w.db ∧ row = record)) := by
    intro transferId row hrow
    rw [claimDue_find?] at hrow
    obtain ⟨record, hrecord, rfl⟩ := Option.map_eq_some_iff.mp hrow
    refine ⟨record, hrecord, ?_⟩
    by_cases hmem : record ∈ dueRecords now limit w.db
    · rw [if_pos hmem]
      exact Or.inl ⟨hmem, rfl⟩
    · rw [if_neg hmem]
      exact Or.inr ⟨hmem, rfl⟩
  refine ⟨horderly, ?_, ?_, ?_⟩
  · intro transferId
    dsimp only
    rw [List.count_append, h.counted, claimDue_find?, hids,
      (dueRecords_nodup now limit w.db).count]
    cases hfind : w.db.outgoing.find? transferId with
    | none =>
        have hnot : transferId ∉ (dueRecords now limit w.db).map
            OutgoingTransaction.transferId := by
          intro hmem
          obtain ⟨record, hrecord, rfl⟩ := List.mem_map.mp hmem
          rw [(hdue record hrecord).1] at hfind
          cases hfind
        rw [if_neg hnot]
        rfl
    | some record =>
        have hkey := Table.key_of_find? hfind
        have hiff : transferId ∈ (dueRecords now limit w.db).map
            OutgoingTransaction.transferId ↔ record ∈ dueRecords now limit w.db := by
          constructor
          · intro hmem
            obtain ⟨other, hother, hid⟩ := List.mem_map.mp hmem
            have hfound := (hdue other hother).1
            rw [hid, hfind, Option.some.injEq] at hfound
            rwa [hfound]
          · intro hmem
            rw [← hkey]
            exact List.mem_map_of_mem hmem
        by_cases hmem : record ∈ dueRecords now limit w.db
        · simp [hiff, hmem, OutgoingTransaction.claimed]
        · simp [hiff, hmem]
  · intro transferId row hfind
    obtain ⟨record, hrecord, ⟨hmem, rfl⟩ | ⟨_, rfl⟩⟩ := hrow transferId row hfind
    · have hless := hleft transferId record hrecord (hdue record hmem).2
      exact hless
    · exact h.within transferId row hrecord
  · intro transferId row hfind hclaimable
    obtain ⟨record, hrecord, ⟨hmem, rfl⟩ | ⟨_, rfl⟩⟩ := hrow transferId row hfind
    · exact Or.inr (List.mem_map_of_mem hmem)
    · exact Or.inl (hleft transferId row hrecord hclaimable)

theorem Budget.step {settings : Settings} (hmax : 1 ≤ settings.broadcastMaxAttempts)
    {w : WorkerPair} (h : w.Budget settings) (action : PairStep)
    (hspares : w.Spares settings action) :
    (step settings action w).Budget settings := by
  have hstep := step_stepped settings action w
  have horderly := h.orderly.stepped hstep
  generalize WorkerPair.step settings action w = w' at hstep horderly
  cases hstep with
  | idle => exact h
  | requested scope envelope db hdispatched =>
      have hcases : ∀ transferId, db.outgoing.find? transferId =
          w.db.outgoing.find? transferId ∨ (w.db.outgoing.find? transferId = none ∧
            ∃ record, db.outgoing.find? transferId = some record ∧ record.attempts = 0) := by
        intro transferId
        cases hold : w.db.outgoing.find? transferId with
        | some record => exact Or.inl (dispatched_find? hdispatched hold)
        | none =>
            cases hnew : db.outgoing.find? transferId with
            | none => exact Or.inl rfl
            | some record =>
                exact Or.inr ⟨rfl, record, rfl, dispatched_new hdispatched hold hnew⟩
      refine ⟨horderly, ?_, ?_, ?_⟩
      · intro transferId
        rcases hcases transferId with hsame | ⟨hnone, record, hnew, hzero⟩
        · rw [hsame]
          exact h.counted transferId
        · rw [h.counted, hnone, hnew, Option.map_some, hzero]
          rfl
      · intro transferId record hrecord
        rcases hcases transferId with hsame | ⟨_, record', hnew, hzero⟩
        · rw [hsame] at hrecord
          exact h.within transferId record hrecord
        · rw [hnew, Option.some.injEq] at hrecord
          subst hrecord
          omega
      · intro transferId record hrecord hclaimable
        rcases hcases transferId with hsame | ⟨_, record', hnew, hzero⟩
        · rw [hsame] at hrecord
          exact h.left transferId record hrecord hclaimable
        · rw [hnew, Option.some.injEq] at hrecord
          subst hrecord
          exact Or.inl (by omega)
  | claimed now limit hfree => exact h.claimed hfree horderly
  | answered answer => exact ⟨horderly, h.counted, h.within, h.left⟩
  | recorded scope row rest answer record db hclaimed hrecord hanswered =>
      -- the row in hand is the record
      have hrow := (h.orderly.claimed row (by rw [hclaimed]; exact List.mem_cons_self)).1
      rw [hrow, Option.some.injEq] at hrecord
      subst hrecord
      obtain ⟨record', hrecord', hspared⟩ := answered_spared hrow hanswered
      refine h.written horderly rfl hrow hrecord' hspared
        (fun _ hid => answered_find?_other hanswered hid) ?_
      intro other hother hne
      rw [hclaimed] at hother
      exact (List.mem_cons.mp hother).resolve_left fun hsame => hne (by rw [hsame])
  | missing scope row rest hclaimed hnone =>
      have hrow := (h.orderly.claimed row (by rw [hclaimed]; exact List.mem_cons_self)).1
      rw [hnone] at hrow
      cases hrow
  | raised scope row rest answer e hclaimed hanswer hraised =>
      apply h.dropped ?_ horderly
      rcases hspares with hleft | ⟨hscope, hrecordable⟩
      · exact hleft
      · have hrow := (h.orderly.claimed row (by rw [hclaimed]; exact List.mem_cons_self)).1
        obtain ⟨outcome, db', hcommit, _⟩ := (broadcastTx_succeeds hscope hrow
          (hrecordable row rest answer hclaimed hanswer)).commit_returns
        rw [hraised] at hcommit
        cases hcommit
  | crashed => exact h.dropped hspares horderly
  | looked action head listed phase hlooked => exact ⟨horderly, h.counted, h.within, h.left⟩
  | checked scope transferId rest seen receipt record db hlisted hphase hrecord hchecked =>
      obtain ⟨hstatus, hseen⟩ := h.orderly.checking hlisted hphase hrecord
      have hkey := Table.key_of_find? hrecord
      subst hkey
      obtain ⟨record', hrecord', hspared⟩ := checked_spared hrecord hstatus hseen hchecked
      exact h.written horderly rfl hrecord hrecord' hspared
        (fun _ hid => hchecked.find?_other hid) fun row hrow _ => hrow

/-- In every run in which no round of the broadcaster ends with a row in hand at its last
attempt, no transfer is claimed more often than the budget allows. -/
theorem spared_runs_keep_the_budget {settings : Settings}
    (hmax : 1 ≤ settings.broadcastMaxAttempts)
    {addresses : Table String Address Address.owner} {actions : List PairStep}
    (hspared : AdmittedRun (step settings) (Spares settings) (start addresses) actions)
    (transferId : Uuid) :
    (runSteps (step settings) (start addresses) actions).claims.count transferId ≤
      settings.broadcastMaxAttempts := by
  have hbudget : (runSteps (step settings) (start addresses) actions).Budget settings :=
    hspared.invariant (fun _ action h hspares => h.step hmax action hspares)
      (.start addresses)
  rw [hbudget.counted]
  cases hrecord : (runSteps (step settings) (start addresses) actions).db.outgoing.find?
      transferId with
  | none => exact Nat.zero_le _
  | some record => exact hbudget.within transferId record hrecord

/-! ### A worker which dies with the row in hand -/

open TransferWorld (someRequest)

/-- Every claim finds the lease of the one before run out. -/
def crashedRun (claims : Nat) : List PairStep :=
  .request someScope (someRequest 1) ::
    (List.range claims).flatMap fun n => [.claim (1000 + 10 * n) 20, .crash]

theorem crashed_transfer_is_claimed_again :
    Settings.standard.broadcastMaxAttempts <
      (runSteps (step .standard) (start Db.custody.addresses)
        (crashedRun 6)).claims.count (someUuid 1) := by
  decide +kernel

/-- Three crashes, a failed attempt, and the last claim. -/
def sparedRun : List PairStep :=
  crashedRun 3 ++ [.claim 1030 20, .send (.error (.rpcUnavailable "timeout")),
    .record someScope, .claim 1100 20]

def AttemptsLeft (settings : Settings) (w : WorkerPair) (action : PairStep) : Prop :=
  match action with
  | .crash | .record _ => ∀ row ∈ w.claimed, row.attempts < settings.broadcastMaxAttempts
  | _ => True

instance (settings : Settings) (w : WorkerPair) (action : PairStep) :
    Decidable (w.AttemptsLeft settings action) :=
  match action with
  | .crash | .record _ => inferInstanceAs (Decidable (∀ row ∈ w.claimed, _))
  | .request _ _ | .claim _ _ | .send _ | .list _ | .read | .receipt _ | .check _ | .leave =>
    inferInstanceAs (Decidable True)

theorem AttemptsLeft.spares {settings : Settings} {w : WorkerPair} {action : PairStep}
    (h : w.AttemptsLeft settings action) : w.Spares settings action := by
  cases action with
  | crash => exact h
  | record scope => exact Or.inl h
  | request _ _ | claim _ _ | send _ | list _ | read | receipt _ | check _ | leave => trivial

theorem sparedRun_claims :
    AdmittedRun (step .standard) (AttemptsLeft .standard) (start Db.custody.addresses)
        sparedRun ∧
      (runSteps (step .standard) (start Db.custody.addresses) sparedRun).claims.count
        (someUuid 1) = 5 := by
  decide +kernel

theorem fifth_claim_is_within_the_budget :
    (runSteps (step .standard) (start Db.custody.addresses) sparedRun).claims.count
        (someUuid 1) = 5 ∧
      ∀ transferId, (runSteps (step .standard) (start Db.custody.addresses)
        sparedRun).claims.count transferId ≤ Settings.standard.broadcastMaxAttempts :=
  ⟨sparedRun_claims.2, spared_runs_keep_the_budget (by decide)
    (sparedRun_claims.1.mono fun _ _ h => h.spares)⟩

end WorkerPair

end CryptoWallet.Blockchain
