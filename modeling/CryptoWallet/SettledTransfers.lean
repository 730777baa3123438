import CryptoWallet.TransferRuns

/-!
# Settled transfers while any number of workers overlap

A worker writes what it learned from the node in a transaction of its own, long after
it read the record.  The answers which can be repeated, the requeueing of a stuck
transaction and, for a reorged record, the hash of a broadcast are written whatever
the record has become in between.
-/

namespace CryptoWallet.Blockchain

open Tx

def TxStatus.terminal : TxStatus → Bool
  | .failed | .reorged => true
  | _ => false

/-- Confirmed or terminal. -/
def TxStatus.settled : TxStatus → Bool
  | .confirmed | .failed | .reorged => true
  | _ => false

/-- A terminal record stays terminal, a confirmed one stays or becomes terminal. -/
def TxStatus.Leads (status status' : TxStatus) : Prop :=
  (status.terminal = true → status'.terminal = true) ∧
    (status = .confirmed → status'.settled = true)

instance (status status' : TxStatus) : Decidable (status.Leads status') :=
  inferInstanceAs (Decidable (_ ∧ _))

theorem TxStatus.Leads.refl (status : TxStatus) : status.Leads status := by
  refine ⟨id, ?_⟩
  rintro rfl
  rfl

theorem TxStatus.Leads.trans {status status' status'' : TxStatus}
    (h : status.Leads status') (h' : status'.Leads status'') : status.Leads status'' := by
  refine ⟨fun hterminal => h'.1 (h.1 hterminal), fun hconfirmed => ?_⟩
  have hsettled := h.2 hconfirmed
  cases hstatus : status' with
  | confirmed => exact h'.2 hstatus
  | failed | reorged =>
      have hterminal := h'.1 (by rw [hstatus]; rfl)
      revert hterminal
      cases status'' <;> simp [TxStatus.terminal, TxStatus.settled]
  | created | pending | broadcasted => simp [hstatus, TxStatus.settled] at hsettled

/-- An open record may become anything. -/
theorem TxStatus.Leads.of_open {status : TxStatus} (hopen : status.settled = false)
    (status' : TxStatus) : status.Leads status' := by
  refine ⟨fun hterminal => ?_, fun hconfirmed => ?_⟩
  · cases status <;> simp_all [TxStatus.terminal, TxStatus.settled]
  · simp [hconfirmed, TxStatus.settled] at hopen

theorem TxStatus.Leads.of_terminal {status' : TxStatus} (h : status'.terminal = true)
    (status : TxStatus) : status.Leads status' := by
  refine ⟨fun _ => h, fun _ => ?_⟩
  revert h
  cases status' <;> simp [TxStatus.terminal, TxStatus.settled]

/-! ## What a failure leaves in the outbox -/

/-- The event that the transfer failed has been enqueued. -/
def Db.failureAnnounced (db : Db) (transferId : Uuid) : Bool :=
  db.outbox.envelopes.any fun envelope =>
    envelope.eventType = .txFailed &&
      envelope.payload.get? "transfer_id" = some (.str transferId.str)

theorem failurePayload_transferId {record : OutgoingTransaction} {wasConfirmed : Bool}
    {reason code : String} {payload : Payload}
    (h : failurePayload record wasConfirmed reason code = .ok payload) :
    payload.get? "transfer_id" = some (.str record.transferId.str) := by
  unfold failurePayload at h
  split at h
  · cases h
  · cases h
    rfl

/-! ## One step -/

/-- What the statements of the workers may do to the records. -/
structure Db.Moves (db db' : Db) : Prop where
  leads : ∀ record ∈ db.outgoing.rows, ∃ record' ∈ db'.outgoing.rows,
    record'.transferId = record.transferId ∧ record.status.Leads record'.status
  announced : ∀ transferId, db'.failureAnnounced transferId = true →
    db.failureAnnounced transferId = true ∨ ∃ record ∈ db'.outgoing.rows,
      record.transferId = transferId ∧ record.status.terminal = true

theorem Db.Moves.refl (db : Db) : db.Moves db :=
  ⟨fun record hrecord => ⟨record, hrecord, rfl, .refl record.status⟩,
    fun _ hannounced => Or.inl hannounced⟩

section Moves

variable {db db' : Db} {record record' : OutgoingTransaction}

theorem Db.Moves.replaced (hrecord : db.outgoing.find? record.transferId = some record)
    (hkey : record'.transferId = record.transferId)
    (hleads : record.status.Leads record'.status)
    (hreplace : db'.outgoing = db.outgoing.replace record')
    (hannounced : ∀ transferId, db'.failureAnnounced transferId = true →
      db.failureAnnounced transferId = true ∨
        (record.transferId = transferId ∧ record'.status.terminal = true)) :
    db.Moves db' := by
  have hfind : db.outgoing.find? record'.transferId = some record := by
    rw [hkey]
    exact hrecord
  have hmem : ∀ r, r ∈ db'.outgoing.rows ↔
      r = record' ∨ (r ∈ db.outgoing.rows ∧ r.transferId ≠ record'.transferId) := by
    intro r
    rw [hreplace]
    exact Table.mem_replace _ hfind
  refine ⟨?_, ?_⟩
  · intro r hr
    by_cases hsame : r.transferId = record'.transferId
    · have heq := db.outgoing.eq_of_mem_of_key_eq hr (Table.mem_of_find? hrecord)
        (hsame.trans hkey)
      subst heq
      exact ⟨record', (hmem record').mpr (Or.inl rfl), hkey, hleads⟩
    · exact ⟨r, (hmem r).mpr (Or.inr ⟨hr, hsame⟩), rfl, .refl r.status⟩
  · intro transferId hnow
    rcases hannounced transferId hnow with hbefore | ⟨hid, hterminal⟩
    · exact Or.inl hbefore
    · exact Or.inr ⟨record', (hmem record').mpr (Or.inl rfl), hkey.trans hid, hterminal⟩

theorem Db.Moves.saved (hrecord : db.outgoing.find? record.transferId = some record)
    (hkey : record'.transferId = record.transferId)
    (hleads : record.status.Leads record'.status) : db.Moves (db.saved record') :=
  .replaced hrecord hkey hleads rfl fun _ hannounced => Or.inl hannounced

theorem announced_of_enqueue {outbox : Outbox} {envelope : Envelope}
    (henqueue : enqueueEvent db.outbox envelope = .ok outbox) (hbox : db'.outbox = outbox)
    {transferId : Uuid} (hannounced : db'.failureAnnounced transferId = true) :
    db.failureAnnounced transferId = true ∨ (envelope.eventType = .txFailed ∧
      envelope.payload.get? "transfer_id" = some (.str transferId.str)) := by
  unfold Db.failureAnnounced at hannounced ⊢
  rw [hbox] at hannounced
  rcases enqueueEvent_cases henqueue with ⟨_, rfl⟩ | ⟨_, hrows⟩
  · exact Or.inl hannounced
  · rw [hrows, List.any_append, Bool.or_eq_true] at hannounced
    rcases hannounced with hold | hnew
    · exact Or.inl hold
    · right
      simpa using hnew

/-- A record is failed and its failure announced. -/
theorem Db.Moves.failed (hrecord : db.outgoing.find? record.transferId = some record)
    (hkey : record'.transferId = record.transferId)
    (hterminal : record'.status.terminal = true) {scope : Scope} {wasConfirmed : Bool}
    {reason code : String} {payload : Payload}
    (hpayload : failurePayload record' wasConfirmed reason code = .ok payload)
    {row : OutgoingTransaction} {dedupeKey : String}
    (hannounces : db.Announces record' (failedEvent scope row payload dedupeKey) db') :
    db.Moves db' := by
  obtain ⟨outbox, henqueue, rfl⟩ := hannounces
  apply Db.Moves.replaced hrecord hkey (.of_terminal hterminal _) rfl
  intro transferId hnow
  rcases announced_of_enqueue henqueue rfl hnow with hbefore | ⟨_, hid⟩
  · exact Or.inl hbefore
  · right
    change payload.get? "transfer_id" = _ at hid
    rw [failurePayload_transferId hpayload, Option.some.injEq, Json.str.injEq] at hid
    exact ⟨hkey.symm.trans (Uuid.str_injective hid), hterminal⟩

/-- A record is moved on and an event enqueued which announces no failure. -/
theorem Db.Moves.progressed (hrecord : db.outgoing.find? record.transferId = some record)
    (hkey : record'.transferId = record.transferId)
    (hleads : record.status.Leads record'.status) {envelope : Envelope}
    (htype : envelope.eventType ≠ .txFailed) (hannounces : db.Announces record' envelope db') :
    db.Moves db' := by
  obtain ⟨outbox, henqueue, rfl⟩ := hannounces
  apply Db.Moves.replaced hrecord hkey hleads rfl
  intro transferId hnow
  rcases announced_of_enqueue henqueue rfl hnow with hbefore | ⟨hfailed, _⟩
  · exact Or.inl hbefore
  · exact (htype hfailed).elim

/-- The answer of the node may be written over a record with this status. -/
def answerAllowed (settings : Settings) (row : OutgoingTransaction)
    (answer : Except ChainError ChainHash) (status : TxStatus) : Bool :=
  match answer with
  | .ok _ => status ≠ .reorged
  | .error _ => !(retriable settings row answer && status.settled)

theorem Answered.moves {settings : Settings} {scope : Scope} {row : OutgoingTransaction}
    {answer : Except ChainError ChainHash}
    (hanswered : Answered settings scope row db record answer db')
    (hrecord : db.outgoing.find? record.transferId = some record)
    (hallowed : answerAllowed settings row answer record.status = true) :
    db.Moves db' := by
  cases hanswered with
  | closed txHash hstatus => exact .refl db
  | confirmed answer habandoned hstatus => exact .refl db
  | broadcast txHash hopen payload hpayload db' hannounces =>
      have hreorged : record.status ≠ .reorged := by simpa [answerAllowed] using hallowed
      have hunsettled : record.status.settled = false := by
        cases hstatus : record.status <;> simp_all [TxStatus.settled]
      have hkey : (record.broadcastedAs scope.now txHash).transferId = record.transferId := rfl
      exact .progressed hrecord hkey (.of_open hunsettled _)
        (by simp [broadcastedEvent, newEvent]) hannounces
  | failed answer habandoned hopen reason code payload hpayload db' hannounces =>
      have hkey : (record.failedBroadcast reason).transferId = record.transferId := rfl
      exact .failed hrecord hkey rfl hpayload hannounces
  | retried answer hretriable reason =>
      have hunsettled : record.status.settled = false := by
        cases answer with
        | ok txHash => simp [retriable] at hretriable
        | error error =>
            simp only [answerAllowed, hretriable, Bool.true_and, Bool.not_eq_true'] at hallowed
            exact hallowed
      have hkey : (record.retried scope.now row.attempts reason).transferId =
          record.transferId := rfl
      exact .saved hrecord hkey (.of_open hunsettled _)

/-- What the watcher found may be written over a record with this status. -/
def checkAllowed (settings : Settings) (now : Nat) (seen : SeenRecord)
    (receipt : Option TxReceipt) (status : TxStatus) : Bool :=
  receipt.isSome || seen.status = .confirmed || !seen.stuck settings now ||
    settings.broadcastMaxAttempts ≤ seen.attempts || !status.settled

theorem Checked.moves {settings : Settings} {scope : Scope} {head : Nat} {seen : SeenRecord}
    {receipt : Option TxReceipt}
    (hchecked : Checked settings scope head seen db record receipt db')
    (hrecord : db.outgoing.find? record.transferId = some record)
    (hallowed : checkAllowed settings scope.now seen receipt record.status = true) :
    db.Moves db' := by
  cases hchecked with
  | reverted receipt hreverted hopen payload hpayload db' hannounces =>
      have hkey : ((record.minedIn head receipt).failedFor revertReason).transferId =
          record.transferId := rfl
      exact .failed hrecord hkey rfl hpayload hannounces
  | confirmed receipt hripe payload hpayload db' hannounces =>
      have hkey : (record.minedIn head receipt).confirmed.transferId = record.transferId := rfl
      have hunsettled : record.status.settled = false := by
        rw [hripe.1]
        rfl
      exact .progressed hrecord hkey (.of_open hunsettled _)
        (by simp [txConfirmedEvent, newEvent]) hannounces
  | mined receipt hreverted hripe =>
      have hkey : (record.minedIn head receipt).transferId = record.transferId := rfl
      exact .saved hrecord hkey (.refl record.status)
  | reorged hseen payload hpayload dedupeKey db' hannounces =>
      have hkey : record.reorged.transferId = record.transferId := rfl
      exact .failed hrecord hkey rfl hpayload hannounces
  | waiting hseen hstuck => exact .refl db
  | requeued hseen hstuck hattempts =>
      have hunsettled : record.status.settled = false := by
        simp only [checkAllowed, hstuck, Option.isSome_none, Bool.false_or, Bool.not_true,
          Bool.or_false, Bool.or_eq_true, decide_eq_true_eq, Bool.not_eq_true'] at hallowed
        rcases hallowed with (hconfirmed | hmax) | hopen
        · exact (hseen hconfirmed).elim
        · omega
        · exact hopen
      have hkey : (record.requeued scope.now).transferId = record.transferId := rfl
      exact .saved hrecord hkey (.of_open hunsettled _)
  | abandoned hseen hstuck hattempts reason payload hpayload db' hannounces =>
      have hkey : (record.failedFor reason).transferId = record.transferId := rfl
      exact .failed hrecord hkey rfl hpayload hannounces

end Moves

theorem claimDue_moves (now limit : Nat) (db : Db) : db.Moves (claimDue now limit db).2 := by
  refine ⟨?_, fun _ hannounced => Or.inl hannounced⟩
  intro record hrecord
  refine ⟨_, List.mem_map_of_mem hrecord, ?_⟩
  split
  next hdue =>
    refine ⟨rfl, TxStatus.Leads.of_open ?_ _⟩
    have hclaimable := (mem_dueRecords hdue).2
    revert hclaimable
    unfold OutgoingTransaction.due
    cases record.status <;> simp [TxStatus.settled]
  next => exact ⟨rfl, .refl record.status⟩

theorem Db.Moves.inserted {db : Db} {record : OutgoingTransaction}
    {outgoing : Table Uuid OutgoingTransaction OutgoingTransaction.transferId}
    (hinsert : db.outgoing.insert? record = some outgoing) :
    db.Moves { db with outgoing } := by
  refine ⟨?_, fun _ hannounced => Or.inl hannounced⟩
  intro r hr
  exact ⟨r, (Table.mem_insert? hinsert).mpr (Or.inl hr), rfl, .refl r.status⟩

theorem Db.Moves.trans {db db' db'' : Db} (h : db.Moves db') (h' : db'.Moves db'') :
    db.Moves db'' := by
  refine ⟨?_, ?_⟩
  · intro record hrecord
    obtain ⟨record', hrecord', hid, hleads⟩ := h.leads record hrecord
    obtain ⟨record'', hrecord'', hid', hleads'⟩ := h'.leads record' hrecord'
    exact ⟨record'', hrecord'', hid'.trans hid, hleads.trans hleads'⟩
  · intro transferId hnow
    rcases h'.announced transferId hnow with hmid | hterminal
    · rcases h.announced transferId hmid with hbefore | ⟨record, hrecord, hid, hterminal⟩
      · exact Or.inl hbefore
      · obtain ⟨record', hrecord', hid', hleads⟩ := h'.leads record hrecord
        exact Or.inr ⟨record', hrecord', hid'.trans hid, hleads.1 hterminal⟩
    · exact Or.inr hterminal

theorem dispatch_moves (scope : Scope) (envelope : Envelope) (db : Db) :
    db.Moves (commit (dispatch scope envelope) db).2 := by
  have hclaimed : ∀ processedEvents, db.Moves { db with processedEvents } :=
    fun _ => ⟨(Db.Moves.refl db).leads, (Db.Moves.refl db).announced⟩
  apply commit_preserves (I := fun db' => db.Moves db') (.refl db)
  apply (dispatch_ensures scope envelope db).mono
  · intro _ db' hdispatched
    cases hdispatched with
    | duplicate => exact .refl db
    | ignored processedEvents => exact hclaimed processedEvents
    | accepted processedEvents hrequested db' haccepted =>
        apply (hclaimed processedEvents).trans
        cases haccepted with
        | duplicate record hproposed htaken => exact .refl _
        | accepted record hproposed hknown outgoing hinsert => exact .inserted hinsert
        | unknown record hproposed hunknown outgoing hinsert failed hpayload db' hannounces =>
            have hinserted : Db.Moves { db with processedEvents }
                { db with processedEvents, outgoing } := .inserted hinsert
            apply hinserted.trans
            have hstored : outgoing.find? record.transferId = some record :=
              (Table.find?_insert? hinsert _).trans (if_pos rfl)
            have hkey : (record.failedFor unknownAddressReason).transferId =
                record.transferId := rfl
            exact .failed hstored hkey rfl hpayload hannounces
  · exact fun _ _ => trivial

/-! ## Workers in any order -/

/-- What some worker has in hand: a claimed row, the answer to it, an id of the watcher's
list, what it read of the record, or the receipt. -/
inductive WorkerTask where
  | sending (row : OutgoingTransaction) (afterFailure : Bool)
  | sent (row : OutgoingTransaction) (answer : Except ChainError ChainHash)
  | listed (head : Nat) (transferId : Uuid)
  | asking (head : Nat) (transferId : Uuid) (seen : SeenRecord)
  | told (head : Nat) (transferId : Uuid) (seen : SeenRecord) (receipt : Option TxReceipt)

/-- The tasks of all workers, each of which may wait for any time or for ever. -/
structure WorkerWorld where
  db : Db
  tasks : List WorkerTask

/-- The node gives any answer and any receipt. -/
inductive WorkerStep where
  | request (scope : Scope) (envelope : Envelope)
  | claim (now limit : Nat)
  | send (task : Nat) (answer : Except ChainError ChainHash)
  | answer (task : Nat) (scope : Scope)
  | list (head : Nat)
  | read (task : Nat)
  | receipt (task : Nat) (receipt : Option TxReceipt)
  | check (task : Nat) (scope : Scope)

open TransferWorld (someRequest)

namespace WorkerWorld

def start (addresses : Table String Address Address.owner) : WorkerWorld :=
  ⟨{ Db.empty with addresses }, []⟩

def step (settings : Settings) (action : WorkerStep) (w : WorkerWorld) : WorkerWorld :=
  match action with
  | .request scope envelope => { w with db := (commit (dispatch scope envelope) w.db).2 }
  | .claim now limit =>
    let (claimed, db) := claimDue now limit w.db
    ⟨db, w.tasks ++ claimed.map fun row =>
      .sending row (w.db.failureAnnounced row.transferId)⟩
  | .send task answer =>
    match w.tasks[task]? with
    | some (.sending row _) => { w with tasks := w.tasks.set task (.sent row answer) }
    | _ => w
  | .answer task scope =>
    match w.tasks[task]? with
    | some (.sent row answer) =>
      let bound := correlationScope scope (row.correlationId.map Subtype.val)
      ⟨(commit (broadcastTx settings bound row answer) w.db).2, w.tasks.eraseIdx task⟩
    | _ => w
  | .list head =>
    { w with tasks := w.tasks ++ (candidates settings head w.db).map (.listed head) }
  | .read task =>
    match w.tasks[task]? with
    | some (.listed head transferId) =>
      match (w.db.outgoing.find? transferId).bind OutgoingTransaction.seen with
      | none => { w with tasks := w.tasks.eraseIdx task }
      | some seen => { w with tasks := w.tasks.set task (.asking head transferId seen) }
    | _ => w
  | .receipt task receipt =>
    match w.tasks[task]? with
    | some (.asking head transferId seen) =>
      { w with tasks := w.tasks.set task (.told head transferId seen receipt) }
    | _ => w
  | .check task scope =>
    match w.tasks[task]? with
    | some (.told head transferId seen receipt) =>
      ⟨(commit (checkTx settings scope head transferId seen receipt) w.db).2,
        w.tasks.eraseIdx task⟩
    | _ => w

/-- What a worker is about to write suits the record it finds. -/
def allows (settings : Settings) (w : WorkerWorld) : WorkerStep → Bool
  | .answer task _ =>
    match w.tasks[task]? with
    | some (.sent row answer) =>
      match w.db.outgoing.find? row.transferId with
      | some record => answerAllowed settings row answer record.status
      | none => true
    | _ => true
  | .check task scope =>
    match w.tasks[task]? with
    | some (.told _ transferId seen receipt) =>
      match w.db.outgoing.find? transferId with
      | some record => checkAllowed settings scope.now seen receipt record.status
      | none => true
    | _ => true
  | _ => true

/-- No row in hand was claimed after the failure of its transfer was announced. -/
def NoLateClaim (w : WorkerWorld) : Prop :=
  ∀ row, .sending row true ∉ w.tasks

/-- A record whose failure was announced is terminal. -/
structure Inv (w : WorkerWorld) : Prop where
  announced : ∀ transferId, w.db.failureAnnounced transferId = true →
    ∃ record ∈ w.db.outgoing.rows, record.transferId = transferId ∧
      record.status.terminal = true
  noLateClaim : w.NoLateClaim

theorem Inv.moves {w : WorkerWorld} (h : w.Inv) {db : Db} (hmoves : w.db.Moves db)
    {tasks : List WorkerTask} (htasks : ∀ row, .sending row true ∉ tasks) :
    (⟨db, tasks⟩ : WorkerWorld).Inv := by
  refine ⟨?_, htasks⟩
  intro transferId hnow
  rcases hmoves.announced transferId hnow with hbefore | hterminal
  · obtain ⟨record, hrecord, hid, hterminal⟩ := h.announced transferId hbefore
    obtain ⟨record', hrecord', hid', hleads⟩ := hmoves.leads record hrecord
    exact ⟨record', hrecord', hid'.trans hid, hleads.1 hterminal⟩
  · exact hterminal

theorem NoLateClaim.set {w : WorkerWorld} (h : w.NoLateClaim) (i : Nat) {task : WorkerTask}
    (htask : ∀ row, task ≠ .sending row true) (row : OutgoingTransaction) :
    .sending row true ∉ w.tasks.set i task := by
  intro hmem
  rcases List.mem_or_eq_of_mem_set hmem with hold | hnew
  · exact h row hold
  · exact htask row hnew.symm

theorem NoLateClaim.eraseIdx {w : WorkerWorld} (h : w.NoLateClaim) (i : Nat)
    (row : OutgoingTransaction) : .sending row true ∉ w.tasks.eraseIdx i :=
  fun hmem => h row (List.mem_of_mem_eraseIdx hmem)

/-- One step moves the records on, and claims no transfer which has failed. -/
theorem step_moves {settings : Settings} (w : WorkerWorld) (action : WorkerStep)
    (h : w.Inv) (hallows : w.allows settings action = true) :
    w.db.Moves (step settings action w).db ∧ (step settings action w).Inv := by
  have htasks : ∀ tasks : List WorkerTask, (∀ row, .sending row true ∉ tasks) →
      w.db.Moves w.db ∧ (⟨w.db, tasks⟩ : WorkerWorld).Inv :=
    fun tasks htasks => ⟨.refl w.db, h.moves (.refl w.db) htasks⟩
  have hsame : w.db.Moves w.db ∧ w.Inv := ⟨.refl w.db, h⟩
  cases action with
  | request scope envelope =>
      have hmoves := dispatch_moves scope envelope w.db
      exact ⟨hmoves, h.moves hmoves h.noLateClaim⟩
  | claim now limit =>
      have hmoves := claimDue_moves now limit w.db
      refine ⟨hmoves, h.moves hmoves ?_⟩
      intro row hmem
      rcases List.mem_append.mp hmem with hold | hnew
      · exact h.noLateClaim row hold
      · -- a terminal record is not due
        obtain ⟨claimed, hclaimed, htask⟩ := List.mem_map.mp hnew
        obtain ⟨record, hrecord, rfl⟩ := List.mem_map.mp hclaimed
        simp only [WorkerTask.sending.injEq] at htask
        obtain ⟨hmember, hdue⟩ := mem_dueRecords hrecord
        obtain ⟨other, hother, hid, hterminal⟩ := h.announced _ htask.2
        have heq := w.db.outgoing.eq_of_mem_of_key_eq hother hmember hid
        subst heq
        unfold OutgoingTransaction.due at hdue
        cases hstatus : other.status <;> simp [hstatus, TxStatus.terminal] at hdue hterminal
  | send task answer =>
      simp only [step]
      split
      next row _ _ =>
        exact htasks _ (h.noLateClaim.set task (by simp))
      next => exact hsame
  | answer task scope =>
      simp only [step]
      split
      next row answer htask =>
        have hmoves : w.db.Moves (commit (broadcastTx settings
            (correlationScope scope (row.correlationId.map Subtype.val)) row answer)
            w.db).2 := by
          apply commit_preserves (I := fun db => w.db.Moves db) (.refl w.db)
          apply (broadcastTx_ensures _ _ _ _ _).mono
          · rintro _ db' (⟨_, rfl⟩ | ⟨record, hrecord, hanswered⟩)
            · exact .refl _
            · have hallowed : answerAllowed settings row answer record.status = true := by
                simpa [allows, htask, hrecord] using hallows
              have hkey := Table.key_of_find? hrecord
              rw [← hkey] at hrecord
              exact hanswered.moves hrecord hallowed
          · exact fun _ _ => trivial
        exact ⟨hmoves, h.moves hmoves (h.noLateClaim.eraseIdx task)⟩
      next => exact hsame
  | list head =>
      apply htasks
      intro row hmem
      rcases List.mem_append.mp hmem with hold | hnew
      · exact h.noLateClaim row hold
      · simp at hnew
  | read task =>
      simp only [step]
      split
      next head transferId _ =>
        split
        · exact htasks _ (h.noLateClaim.eraseIdx task)
        · exact htasks _ (h.noLateClaim.set task (by simp))
      next => exact hsame
  | receipt task receipt =>
      simp only [step]
      split
      next head transferId seen _ => exact htasks _ (h.noLateClaim.set task (by simp))
      next => exact hsame
  | check task scope =>
      simp only [step]
      split
      next head transferId seen receipt htask =>
        have hmoves : w.db.Moves (commit (checkTx settings scope head transferId seen receipt)
            w.db).2 := by
          apply commit_preserves (I := fun db => w.db.Moves db) (.refl w.db)
          apply (checkTx_ensures _ _ _ _ _ _ _).mono
          · rintro _ db' (⟨_, _, rfl⟩ | ⟨record, hrecord, hchecked⟩)
            · exact .refl _
            · have hallowed : checkAllowed settings scope.now seen receipt record.status =
                  true := by
                simpa [allows, htask, hrecord] using hallows
              have hkey := Table.key_of_find? hrecord
              rw [← hkey] at hrecord
              exact hchecked.moves hrecord hallowed
          · exact fun _ _ => trivial
        exact ⟨hmoves, h.moves hmoves (h.noLateClaim.eraseIdx task)⟩
      next => exact hsame

/-- From one state of a run to a later one. -/
def Settles (w w' : WorkerWorld) : Prop :=
  (∀ record ∈ w.db.outgoing.rows, ∃ record' ∈ w'.db.outgoing.rows,
    record'.transferId = record.transferId ∧ record.status.Leads record'.status) ∧
    w'.NoLateClaim

/-- In every run whose writes suit the records they find, terminal records stay terminal,
and no transfer is claimed, and so none sent, after its failure was announced. -/
theorem allowed_runs_settle {settings : Settings}
    {addresses : Table String Address Address.owner} {before after : List WorkerStep}
    (hallowed : AdmittedRun (step settings) (fun w action => w.allows settings action = true)
      (start addresses) (before ++ after)) :
    (runSteps (step settings) (start addresses) before).Settles
      (runSteps (step settings) (start addresses) (before ++ after)) := by
  obtain ⟨hbefore, hafter⟩ := admittedRun_append.mp hallowed
  have hstart : (start addresses).Inv := by
    refine ⟨fun transferId hnow => ?_, fun row hmem => ?_⟩
    · simp [start, Db.empty, Db.failureAnnounced, Outbox.envelopes] at hnow
    · simp [start] at hmem
  have hmid := hbefore.invariant (I := Inv)
    (fun w action h hallows => (step_moves w action h hallows).2) hstart
  rw [runSteps_append]
  have hend := hafter.invariant
    (I := fun w => (runSteps (step settings) (start addresses) before).db.Moves w.db ∧ w.Inv)
    (fun w action h hallows => by
      obtain ⟨hmoves, hinv⟩ := step_moves w action h.2 hallows
      exact ⟨h.1.trans hmoves, hinv⟩)
    ⟨.refl _, hmid⟩
  exact ⟨hend.1.leads, hend.2.noLateClaim⟩

/-! ### A repeated attempt after a rejection -/

/-- Two workers claim one transfer, the second as the lease of the first has run out;
the node rejects the second attempt. -/
def rejectedRun : List WorkerStep :=
  [.request someScope (someRequest 1), .claim 1000 20, .claim 1010 20,
    .send 1 (.error (.transactionRejected "insufficient funds")), .answer 1 someScope]

/-- The first attempt times out, and a third worker claims the transfer. -/
def timedOutRun : List WorkerStep :=
  [.send 0 (.error (.rpcUnavailable "timeout")), .answer 0 someScope, .claim 1030 20]

def failedWorld : WorkerWorld :=
  runSteps (step .standard) (start Db.custody.addresses) rejectedRun

def revivedWorld : WorkerWorld :=
  runSteps (step .standard) (start Db.custody.addresses) (rejectedRun ++ timedOutRun)

theorem failed_record_is_pending :
    ∃ record ∈ failedWorld.db.outgoing.rows, record.status = .failed ∧
      ∀ record' ∈ revivedWorld.db.outgoing.rows, record'.transferId = record.transferId →
        record'.status = .pending := by
  decide +kernel

theorem failed_transfer_is_claimed_again : ¬failedWorld.Settles revivedWorld := by
  rintro ⟨hleads, _⟩
  obtain ⟨record, hrecord, hfailed, hpending⟩ := failed_record_is_pending
  obtain ⟨record', hrecord', hid, hterminal, _⟩ := hleads record hrecord
  have hstatus := hterminal (by rw [hfailed]; rfl)
  rw [hpending record' hrecord' hid] at hstatus
  cases hstatus

/-! ### Settled transfers which are still in hand -/

/-- Two workers have claimed the first transfer; the node rejects it for one of them.  The
second transfer is confirmed. -/
def settledRun : List WorkerStep :=
  [.request someScope (someRequest 1), .claim 1000 20,
    .request someScope (someRequest 2), .claim 1010 20,
    .send 1 (.error (.transactionRejected "insufficient funds")), .answer 1 someScope,
    .send 1 (.ok MockChain.zeroHash), .answer 1 someScope,
    .list 20, .read 1, .receipt 1 (some ⟨MockChain.zeroHash, 10, MockChain.zeroHash, 1⟩),
    .check 1 someScope]

/-- The node rejects the first transfer again and has lost the block of the second. -/
def lateRun : List WorkerStep :=
  [.send 0 (.error (.transactionRejected "insufficient funds")), .answer 0 someScope,
    .list 20, .read 0, .receipt 0 none, .check 0 someScope, .claim 2000 20]

def statuses (steps : List WorkerStep) : List TxStatus :=
  (runSteps (step .standard) (start Db.custody.addresses) steps).db.outgoing.rows.map
    (·.status)

theorem settledRun_facts :
    AdmittedRun (step .standard) (fun w action => w.allows .standard action = true)
        (start Db.custody.addresses) (settledRun ++ lateRun) ∧
      statuses settledRun = [.failed, .confirmed] ∧
      statuses (settledRun ++ lateRun) = [.failed, .reorged] := by
  decide +kernel

theorem settled_transfers_settle :
    (runSteps (step .standard) (start Db.custody.addresses) settledRun).Settles
      (runSteps (step .standard) (start Db.custody.addresses) (settledRun ++ lateRun)) ∧
    statuses settledRun = [.failed, .confirmed] ∧
      statuses (settledRun ++ lateRun) = [.failed, .reorged] :=
  ⟨allowed_runs_settle settledRun_facts.1, settledRun_facts.2⟩

end WorkerWorld
end CryptoWallet.Blockchain
