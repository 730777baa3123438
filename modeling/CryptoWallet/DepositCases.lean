import CryptoWallet.Deposits

/-!
# What the deposit workers can do to the database

One inversion lemma for each transaction: the rows it writes, the event it
offers to the outbox, and what it leaves alone.
-/

namespace CryptoWallet.Blockchain

open Tx

variable {σ : Type}

theorem enqueue_ensures (envelope : Envelope) (db : Db) :
    Ensures (enqueue envelope) db
      (fun _ db' => ∃ outbox, enqueueEvent db.outbox envelope = .ok outbox ∧
        db' = { db with outbox }) fun _ => True := by
  unfold enqueue
  apply Ensures.query_bind
  apply Ensures.orRaise_bind
  · intro outbox houtbox
    exact Ensures.modifyDb ⟨outbox, houtbox, rfl⟩
  · exact fun _ _ => trivial

/-! ## The scanner -/

/-- The columns no later statement writes. -/
structure Deposit.SameLog (d d' : Deposit) : Prop where
  identity : d'.identity = d.identity
  asset : d'.asset = d.asset
  toAddress : d'.toAddress = d.toAddress
  fromAddress : d'.fromAddress = d.fromAddress
  amount : d'.amount = d.amount

theorem Deposit.SameLog.refl (d : Deposit) : d.SameLog d := ⟨rfl, rfl, rfl, rfl, rfl⟩

theorem Deposit.SameLog.trans {d d' d'' : Deposit} (h : d.SameLog d')
    (h' : d'.SameLog d'') : d.SameLog d'' :=
  ⟨h'.identity.trans h.identity, h'.asset.trans h.asset, h'.toAddress.trans h.toAddress,
    h'.fromAddress.trans h.fromAddress, h'.amount.trans h.amount⟩

/-- The row repeats the log, as far as the columns hold it. -/
structure Deposit.Proposes (d : Deposit) (entry : TransferLog) : Prop where
  network : varchar 32 entry.network = .ok d.network
  asset : varchar 16 entry.asset = .ok d.asset
  toAddress : varchar 64 entry.toAddress = .ok d.toAddress
  fromAddress : varchar 64 entry.fromAddress = .ok d.fromAddress
  txHash : d.txHash = entry.txHash
  logIndex : d.logIndex = entry.logIndex
  amount : d.amount = entry.amount
  blockNumber : d.blockNumber = entry.blockNumber
  blockHash : d.blockHash = entry.blockHash
  status : d.status = .detected

theorem proposedDeposit_ok {newId : Uuid} {entry : TransferLog} {d : Deposit}
    (h : proposedDeposit newId entry = .ok d) : d.Proposes entry := by
  unfold proposedDeposit at h
  cases hnetwork : varchar 32 entry.network with
  | error e => simp [hnetwork, bind, Except.bind] at h
  | ok network =>
      cases hasset : varchar 16 entry.asset with
      | error e => simp [hnetwork, hasset, bind, Except.bind] at h
      | ok asset =>
          cases hto : varchar 64 entry.toAddress with
          | error e => simp [hnetwork, hasset, hto, bind, Except.bind] at h
          | ok toAddress =>
              cases hfrom : varchar 64 entry.fromAddress with
              | error e => simp [hnetwork, hasset, hto, hfrom, bind, Except.bind] at h
              | ok fromAddress =>
                  simp only [hnetwork, hasset, hto, hfrom, bind, Except.bind] at h
                  split at h
                  next hfits =>
                    split at h
                    next hpositive =>
                      cases h
                      exact ⟨hnetwork, hasset, hto, hfrom, rfl, rfl, rfl, rfl, rfl, rfl⟩
                    next => cases h
                  next => cases h

theorem Deposit.Proposes.identity {d : Deposit} {entry : TransferLog}
    (h : d.Proposes entry) (hnetwork : entry.network.length ≤ 32) :
    d.identity = entry.identity := by
  unfold Deposit.identity TransferLog.identity
  rw [varchar_eq hnetwork h.network, h.txHash, h.logIndex]

/-- The event about a log which was found. -/
def detectedEvent (scope : Scope) (entry : TransferLog) (payload : Payload) : Envelope :=
  depositEvent scope .depositDetected payload entry.txHash
    (DepositId.inBlock entry.identity entry.blockHash)

/-- One upsert of the scanner. -/
inductive Upserted (scope : Scope) (newId : Uuid) (entry : TransferLog) (db : Db) :
    Db → Prop where
  | inserted (proposed : Deposit) (hproposed : proposed.Proposes entry)
      (deposits : Table DepositId Deposit Deposit.identity)
      (hinsert : db.deposits.insert? proposed = some deposits)
      (payload : Payload) (hpayload : depositPayload proposed 0 = .ok payload)
      (outbox : Outbox)
      (houtbox : enqueueEvent db.outbox (detectedEvent scope entry payload) = .ok outbox) :
      Upserted scope newId entry db { db with deposits, outbox }
  | revived (proposed : Deposit) (hproposed : proposed.Proposes entry)
      (stored : Deposit)
      (hstored : db.deposits.find? proposed.identity = some stored)
      (hreorged : stored.status = .reorged)
      (payload : Payload) (hpayload : depositPayload (stored.revived entry) 0 = .ok payload)
      (outbox : Outbox)
      (houtbox : enqueueEvent db.outbox (detectedEvent scope entry payload) = .ok outbox) :
      Upserted scope newId entry db
        { db with deposits := db.deposits.replace (stored.revived entry), outbox }
  | known (proposed : Deposit) (hproposed : proposed.Proposes entry)
      (stored : Deposit)
      (hstored : db.deposits.find? proposed.identity = some stored)
      (hlive : stored.status ≠ .reorged) :
      Upserted scope newId entry db db

theorem detectDeposit_ensures (scope : Scope) (entry : TransferLog) (d : Deposit)
    (db : Db) :
    Ensures (detectDeposit scope entry d) db
      (fun _ db' => ∃ payload outbox, depositPayload d 0 = .ok payload ∧
        enqueueEvent db.outbox (detectedEvent scope entry payload) = .ok outbox ∧
        db' = { db with outbox }) fun _ => True := by
  unfold detectDeposit
  apply Ensures.orRaise_bind
  · intro payload hpayload
    apply (enqueue_ensures _ db).mono
    · rintro _ db' ⟨outbox, houtbox, rfl⟩
      exact ⟨payload, outbox, hpayload, houtbox, rfl⟩
    · exact fun _ _ => trivial
  · exact fun _ _ => trivial

theorem upsertDeposit_ensures (scope : Scope) (newId : Uuid) (entry : TransferLog)
    (db : Db) :
    Ensures (upsertDeposit scope newId entry) db
      (fun _ db' => Upserted scope newId entry db db') fun _ => True := by
  unfold upsertDeposit
  apply Ensures.orRaise_bind
  · intro proposed hproposed
    have hrow := proposedDeposit_ok hproposed
    apply Ensures.query_bind
    cases hfind : db.deposits.find? proposed.identity with
    | none =>
        apply Ensures.modifyDb_bind
        obtain ⟨deposits, hinsert⟩ := db.deposits.exists_insert? proposed hfind
        apply Ensures.bind (detectDeposit_ensures scope entry proposed _)
        rintro _ db' ⟨payload, outbox, hpayload, houtbox, rfl⟩
        apply Ensures.pure
        have hstep : Upserted scope newId entry db _ :=
          .inserted proposed hrow deposits hinsert payload hpayload outbox houtbox
        simpa [hinsert] using hstep
    | some stored =>
        dsimp only
        split
        next hreorged =>
          apply Ensures.modifyDb_bind
          apply Ensures.bind (detectDeposit_ensures scope entry (stored.revived entry) _)
          rintro _ db' ⟨payload, outbox, hpayload, houtbox, rfl⟩
          exact Ensures.pure (.revived proposed hrow stored hfind hreorged payload hpayload
            outbox houtbox)
        next hlive => exact Ensures.pure (.known proposed hrow stored hfind hlive)
  · exact fun _ _ => trivial

/-- The upserts of one run, in the order of the logs. -/
inductive UpsertedAll (scope : Scope) (newId : TransferLog → Uuid) :
    List TransferLog → Db → Db → Prop where
  | nil (db : Db) : UpsertedAll scope newId [] db db
  | cons {entry : TransferLog} {rest : List TransferLog} {db mid db' : Db}
      (hfirst : Upserted scope (newId entry) entry db mid)
      (hrest : UpsertedAll scope newId rest mid db') :
      UpsertedAll scope newId (entry :: rest) db db'

theorem upsertDeposits_ensures (scope : Scope) (newId : TransferLog → Uuid)
    (logs : List TransferLog) (db : Db) :
    Ensures (upsertDeposits scope newId logs) db
      (fun _ db' => UpsertedAll scope newId logs db db') fun _ => True := by
  induction logs generalizing db with
  | nil => exact Ensures.pure (.nil db)
  | cons entry rest ih =>
      unfold upsertDeposits
      apply Ensures.bind (upsertDeposit_ensures scope (newId entry) entry db)
      intro detected mid hfirst
      apply Ensures.bind (ih mid)
      intro more db' hrest
      split
      · exact Ensures.pure (.cons hfirst hrest)
      · exact Ensures.pure (.cons hfirst hrest)

/-- The new cursor of the scanner. -/
def ScanPlan.state (settings : Settings) (plan : ScanPlan) : ScanState :=
  ⟨settings.network, plan.toBlock, plan.tipHash⟩

def Db.moveCursor (db : Db) (state : ScanState) : Db :=
  { db with scanState := (db.scanState.insert? state).getD (db.scanState.replace state) }

theorem scanTx_ensures (settings : Settings) (scope : Scope)
    (newId : TransferLog → Uuid) (plan : ScanPlan) (db : Db) :
    Ensures (scanTx settings scope newId plan) db
      (fun _ db' => ∃ mid, UpsertedAll scope newId plan.logs db mid ∧
        db' = mid.moveCursor (plan.state settings)) fun _ => True := by
  unfold scanTx
  apply Ensures.bind (upsertDeposits_ensures scope newId plan.logs db)
  intro detected mid hmid
  apply Ensures.modifyDb_bind
  exact Ensures.pure ⟨mid, hmid, rfl⟩

/-- A run of the scanner commits what it planned, or changes nothing. -/
theorem scanOnce_cases (adapter : ChainAdapter σ) (settings : Settings) (scope : Scope)
    (newId : TransferLog → Uuid) (calls : ScanCalls σ) (db : Db) :
    ((scanOnce adapter settings scope newId calls db).2 = db ∧
      ((scanOnce adapter settings scope newId calls db).1 = .raised ∨
        scanPlan adapter settings calls db = .ok none)) ∨
      ∃ plan mid, scanPlan adapter settings calls db = .ok (some plan) ∧
        UpsertedAll scope newId plan.logs db mid ∧
        scanOnce adapter settings scope newId calls db =
          (.completed, mid.moveCursor (plan.state settings)) := by
  unfold scanOnce
  cases hplan : scanPlan adapter settings calls db with
  | error e => exact Or.inl ⟨rfl, Or.inl rfl⟩
  | ok found =>
      cases found with
      | none => exact Or.inl ⟨rfl, Or.inr rfl⟩
      | some plan =>
          dsimp only
          cases hcommit : commit (scanTx settings scope newId plan) db with
          | mk result db' =>
              cases result with
              | error e => exact Or.inl ⟨commit_error hcommit, Or.inl rfl⟩
              | ok detected =>
                  obtain ⟨mid, hmid, rfl⟩ :=
                    (scanTx_ensures settings scope newId plan db).commit_ok hcommit
                  exact Or.inr ⟨plan, mid, rfl, hmid, rfl⟩

/-- What the plan of a run consists of. -/
theorem scanPlan_some {adapter : ChainAdapter σ} {settings : Settings}
    {calls : ScanCalls σ} {db : Db} {plan : ScanPlan}
    (h : scanPlan adapter settings calls db = .ok (some plan)) :
    ∃ head cursor logs, adapter.getBlockNumber calls.head = .ok head ∧ head ≠ 0 ∧
      scanCursor adapter settings calls.cursor (db.scanState.find? settings.network) =
        .ok cursor ∧
      plan.toBlock = min head (cursor + 1 + settings.scanBatchBlocks - 1) ∧
      cursor + 1 ≤ plan.toBlock ∧
      fetchLogs adapter calls.logs (cursor + 1) plan.toBlock (activeAddresses db) =
        .ok logs ∧
      plan.logs = externalLogs settings (activeAddresses db) logs ∧
      adapter.getBlockHash calls.tip plan.toBlock = .ok plan.tipHash := by
  unfold scanPlan at h
  cases hhead : adapter.getBlockNumber calls.head with
  | error e => simp [hhead, bind, Except.bind] at h
  | ok head =>
      simp only [hhead, bind, Except.bind] at h
      split at h
      next => cases h
      next hpositive =>
        cases hcursor : scanCursor adapter settings calls.cursor
            (db.scanState.find? settings.network) with
        | error e => simp [hcursor] at h
        | ok cursor =>
            simp only [hcursor] at h
            split at h
            next => cases h
            next hrange =>
              cases hlogs : fetchLogs adapter calls.logs (cursor + 1)
                  (min head (cursor + 1 + settings.scanBatchBlocks - 1))
                  (activeAddresses db) with
              | error e => simp only [hlogs, reduceCtorEq] at h
              | ok logs =>
                  simp only [hlogs] at h
                  cases htip : adapter.getBlockHash calls.tip
                      (min head (cursor + 1 + settings.scanBatchBlocks - 1)) with
                  | error e => simp only [htip, reduceCtorEq] at h
                  | ok tipHash =>
                      simp only [htip] at h
                      cases h
                      exact ⟨head, cursor, logs, rfl, hpositive, rfl, rfl,
                        Nat.le_of_not_lt hrange, hlogs, rfl, htip⟩

/-- There is nothing to scan when the head is not above the cursor. -/
theorem scanPlan_none {adapter : ChainAdapter σ} {settings : Settings}
    {calls : ScanCalls σ} {db : Db} (h : scanPlan adapter settings calls db = .ok none) :
    ∃ head, adapter.getBlockNumber calls.head = .ok head ∧
      (head = 0 ∨ ∃ cursor,
        scanCursor adapter settings calls.cursor (db.scanState.find? settings.network) =
          .ok cursor ∧
        (head ≤ cursor ∨ settings.scanBatchBlocks = 0)) := by
  unfold scanPlan at h
  cases hhead : adapter.getBlockNumber calls.head with
  | error e => simp [hhead, bind, Except.bind] at h
  | ok head =>
      refine ⟨head, rfl, ?_⟩
      simp only [hhead, bind, Except.bind] at h
      split at h
      next hzero => exact Or.inl hzero
      next =>
        cases hcursor : scanCursor adapter settings calls.cursor
            (db.scanState.find? settings.network) with
        | error e => simp only [hcursor, reduceCtorEq] at h
        | ok cursor =>
            refine Or.inr ⟨cursor, rfl, ?_⟩
            simp only [hcursor] at h
            split at h
            next hrange => omega
            next =>
              split at h
              · cases h
              · split at h
                · cases h
                · cases h

/-! ## The confirmation watcher -/

/-- The event about a deposit which disappeared. -/
def reorgedEvent (scope : Scope) (d : Deposit) (payload : Payload) : Envelope :=
  depositEvent scope .depositReorged
    (reorgedPayload payload (d.status = .confirmed) d.blockHash) d.txHash
    (DepositId.inBlock d.identity d.blockHash ++ ":reorg")

def confirmedEvent (scope : Scope) (d : Deposit) (payload : Payload) : Envelope :=
  depositEvent scope .depositConfirmed payload d.txHash
    (DepositId.inBlock d.identity d.blockHash)

/-- The deposit is promoted when its log is found in this block. -/
def Deposit.ripe (settings : Settings) (head blockNumber : Nat) (d : Deposit) : Prop :=
  d.status = .detected ∧ settings.confirmationsRequired ≤ head + 1 - blockNumber

instance (settings : Settings) (head blockNumber : Nat) (d : Deposit) :
    Decidable (d.ripe settings head blockNumber) :=
  inferInstanceAs (Decidable (_ ∧ _))

/-- The transaction which applies what was found. -/
inductive Reverified (settings : Settings) (scope : Scope) (head : Nat) (db : Db)
    (d : Deposit) : Option (Nat × ChainHash) → Db → Prop where
  | reorged (payload : Payload)
      (hpayload : depositPayload (d.reorgedAtTime scope.now) d.confirmations = .ok payload)
      (outbox : Outbox)
      (houtbox : enqueueEvent db.outbox (reorgedEvent scope d payload) = .ok outbox) :
      Reverified settings scope head db d none
        { db with deposits := db.deposits.replace (d.reorgedAtTime scope.now), outbox }
  | confirmed (blockNumber : Nat) (blockHash : ChainHash)
      (hripe : d.ripe settings head blockNumber) (payload : Payload)
      (hpayload : depositPayload
        ((d.movedTo head blockNumber blockHash).confirmedAtTime scope.now)
        (head + 1 - blockNumber) = .ok payload)
      (outbox : Outbox)
      (houtbox : enqueueEvent db.outbox
        (confirmedEvent scope (d.movedTo head blockNumber blockHash) payload) = .ok outbox) :
      Reverified settings scope head db d (some (blockNumber, blockHash))
        { db with
          deposits := db.deposits.replace
            ((d.movedTo head blockNumber blockHash).confirmedAtTime scope.now)
          outbox }
  | moved (blockNumber : Nat) (blockHash : ChainHash)
      (hripe : ¬d.ripe settings head blockNumber) :
      Reverified settings scope head db d (some (blockNumber, blockHash))
        { db with deposits := db.deposits.replace (d.movedTo head blockNumber blockHash) }

/-- One row is written, and stays live unless the log was not found. -/
theorem Reverified.written {settings : Settings} {scope : Scope} {head : Nat} {db db' : Db}
    {d : Deposit} {found : Option (Nat × ChainHash)}
    (h : Reverified settings scope head db d found db') :
    ∃ row, d.SameLog row ∧ db'.deposits = db.deposits.replace row ∧
      db'.scanState = db.scanState ∧ db'.addresses = db.addresses ∧
      (found ≠ none → d.status ≠ .reorged → row.status ≠ .reorged) := by
  cases h with
  | reorged payload hpayload outbox houtbox =>
      exact ⟨d.reorgedAtTime scope.now, ⟨rfl, rfl, rfl, rfl, rfl⟩, rfl, rfl, rfl,
        fun hsome => (hsome rfl).elim⟩
  | confirmed blockNumber blockHash hripe payload hpayload outbox houtbox =>
      refine ⟨(d.movedTo head blockNumber blockHash).confirmedAtTime scope.now,
        ⟨rfl, rfl, rfl, rfl, rfl⟩, rfl, rfl, rfl, ?_⟩
      simp [Deposit.confirmedAtTime]
  | moved blockNumber blockHash hripe =>
      exact ⟨d.movedTo head blockNumber blockHash, ⟨rfl, rfl, rfl, rfl, rfl⟩, rfl, rfl,
        rfl, fun _ hlive => hlive⟩

theorem reverifyTx_ensures (settings : Settings) (scope : Scope) (head : Nat)
    (found : Option (Nat × ChainHash)) (id : DepositId) (db : Db) :
    Ensures (reverifyTx settings scope head found id) db
      (fun verdict db' =>
        (db.deposits.find? id = none ∧ verdict = .gone ∧ db' = db) ∨
          ∃ d, db.deposits.find? id = some d ∧
            Reverified settings scope head db d found db') fun _ => True := by
  unfold reverifyTx
  apply Ensures.query_bind
  cases hfind : db.deposits.find? id with
  | none => exact Ensures.pure (Or.inl ⟨rfl, rfl, rfl⟩)
  | some d =>
      cases found with
      | none =>
          unfold markReorged
          apply Ensures.orRaise_bind
          · intro payload hpayload
            apply Ensures.modifyDb_bind
            apply Ensures.bind (enqueue_ensures _ _)
            rintro _ db' ⟨outbox, houtbox, rfl⟩
            exact Ensures.pure (Or.inr ⟨d, rfl, .reorged payload hpayload outbox houtbox⟩)
          · exact fun _ _ => trivial
      | some place =>
          obtain ⟨blockNumber, blockHash⟩ := place
          dsimp only
          split
          next hcond =>
            have hripe : d.ripe settings head blockNumber := hcond
            unfold confirmDeposit
            apply Ensures.orRaise_bind
            · intro payload hpayload
              apply Ensures.modifyDb_bind
              apply Ensures.bind (enqueue_ensures _ _)
              rintro _ db' ⟨outbox, houtbox, rfl⟩
              exact Ensures.pure (Or.inr ⟨d, rfl, Reverified.confirmed blockNumber blockHash
                hripe payload hpayload outbox houtbox⟩)
            · exact fun _ _ => trivial
          next hcond =>
            have hripe : ¬d.ripe settings head blockNumber := hcond
            apply Ensures.modifyDb_bind
            exact Ensures.pure (Or.inr ⟨d, rfl, .moved blockNumber blockHash hripe⟩)

/-- The watcher applies what it found, or an exception ends its run. -/
theorem reverify_cases (adapter : ChainAdapter σ) (settings : Settings) (scope : Scope)
    (calls : LookupCalls σ) (head : Nat) (id : DepositId) (db : Db) :
    reverify adapter settings scope calls head id db = (none, db) ∨
      (db.deposits.find? id = none ∧
        reverify adapter settings scope calls head id db = (some .gone, db)) ∨
      ∃ d found verdict db', db.deposits.find? id = some d ∧
        locate adapter calls d = .ok found ∧
        Reverified settings scope head db d found db' ∧
        reverify adapter settings scope calls head id db = (some verdict, db') := by
  unfold reverify
  cases hfind : db.deposits.find? id with
  | none => exact Or.inr (Or.inl ⟨rfl, rfl⟩)
  | some d =>
      dsimp only
      cases hlocate : locate adapter calls d with
      | error e => exact Or.inl rfl
      | ok found =>
          dsimp only
          cases hcommit : commit (reverifyTx settings scope head found id) db with
          | mk result db' =>
              cases result with
              | error e =>
                  left
                  rw [commit_error hcommit]
                  rfl
              | ok verdict =>
                  right
                  right
                  have hpost := (reverifyTx_ensures settings scope head found id db).commit_ok
                    hcommit
                  rcases hpost with ⟨hnone, _⟩ | ⟨d', hd', hreverified⟩
                  · simp [hfind] at hnone
                  · rw [hfind, Option.some.injEq] at hd'
                    subst hd'
                    exact ⟨d, found, verdict, db', rfl, hlocate, hreverified, rfl⟩

end CryptoWallet.Blockchain
