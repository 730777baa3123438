import CryptoWallet.MockChainSubmissions
import CryptoWallet.ScanCoverage
import CryptoWallet.TransferRuns
import CryptoWallet.WatcherRuns

/-!
# A transfer between two addresses in custody is no deposit

A request is only worked on when its sender is in custody, so the sender is among the
addresses of every later run of the scanner, which passes over its transaction.
-/

namespace CryptoWallet.Blockchain

open Tx
open MockChain (ChainStep Consistent LogIndicesFit OnChain Submitted chainStep
  chainStep_consistent chainStep_logIndicesFit chainStep_submissions mem_submissions
  submissions submit_submitted txHashOf)

variable {σ : Type}

/-! ## The books of the service -/

def Db.Issued (db : Db) (address : Varchar 64) : Prop :=
  ∃ a ∈ db.addresses.rows, a.address = address

/-- A request whose sender is not in custody is closed. -/
structure Db.Trusted (db : Db) : Prop where
  active : ∀ a ∈ db.addresses.rows, a.status = .active
  signed : ∀ record ∈ db.outgoing.rows,
    db.Issued record.fromAddress ∨ record.status = .failed

/-- No address is lost and no request changes its sender. -/
structure Db.Retains (db db' : Db) : Prop where
  addresses : ∀ a ∈ db.addresses.rows, a ∈ db'.addresses.rows
  outgoing : ∀ record ∈ db.outgoing.rows, ∃ record' ∈ db'.outgoing.rows,
    record'.transferId = record.transferId ∧ record'.fromAddress = record.fromAddress

theorem Db.Retains.refl (db : Db) : db.Retains db :=
  ⟨fun _ ha => ha, fun record hrecord => ⟨record, hrecord, rfl, rfl⟩⟩

theorem Db.Retains.issued {db db' : Db} (h : db.Retains db') {address : Varchar 64}
    (hissued : db.Issued address) : db'.Issued address := by
  obtain ⟨a, ha, haddress⟩ := hissued
  exact ⟨a, h.addresses a ha, haddress⟩

/-- The row was claimed, and its sender is in custody. -/
def Db.Claimed (db : Db) (row : OutgoingTransaction) : Prop :=
  db.Issued row.fromAddress ∧ ∃ record ∈ db.outgoing.rows,
    record.transferId = row.transferId ∧ record.fromAddress = row.fromAddress

theorem Db.Retains.claimed {db db' : Db} (h : db.Retains db') {row : OutgoingTransaction}
    (hclaimed : db.Claimed row) : db'.Claimed row := by
  obtain ⟨hissued, record, hrecord, hid, hfrom⟩ := hclaimed
  obtain ⟨record', hrecord', hid', hfrom'⟩ := h.outgoing record hrecord
  exact ⟨h.issued hissued, record', hrecord', hid'.trans hid, hfrom'.trans hfrom⟩

/-- The requests and the addresses are untouched. -/
theorem Db.Trusted.congr {db db' : Db} (h : db.Trusted)
    (haddresses : db'.addresses = db.addresses) (houtgoing : db'.outgoing = db.outgoing) :
    db'.Trusted ∧ db.Retains db' := by
  refine ⟨⟨?_, ?_⟩, ?_, ?_⟩
  · rw [haddresses]
    exact h.active
  · simp only [Db.Issued, haddresses, houtgoing]
    exact h.signed
  · rw [haddresses]
    exact fun a ha => ha
  · rw [houtgoing]
    exact fun record hrecord => ⟨record, hrecord, rfl, rfl⟩

/-- One request is written again, by the same sender. -/
theorem Db.Trusted.saved {db db' : Db} (h : db.Trusted) {record record' : OutgoingTransaction}
    (hrecord : db.outgoing.find? record.transferId = some record)
    (hsame : record.SameRequest record') (haddresses : db'.addresses = db.addresses)
    (houtgoing : db'.outgoing = db.outgoing.replace record')
    (hsigned : db.Issued record.fromAddress ∨ record'.status = .failed) :
    db'.Trusted ∧ db.Retains db' := by
  rw [← hsame.transferId] at hrecord
  have hmem : ∀ row, row ∈ db'.outgoing.rows ↔
      row = record' ∨ (row ∈ db.outgoing.rows ∧ row.transferId ≠ record'.transferId) := by
    intro row
    rw [houtgoing]
    exact Table.mem_replace _ hrecord
  refine ⟨⟨?_, ?_⟩, ?_, ?_⟩
  · rw [haddresses]
    exact h.active
  · intro row hrow
    simp only [Db.Issued, haddresses]
    rcases (hmem row).mp hrow with rfl | ⟨hold, _⟩
    · rw [hsame.fromAddress]
      exact hsigned
    · exact h.signed row hold
  · rw [haddresses]
    exact fun a ha => ha
  · intro row hrow
    by_cases hid : row.transferId = record'.transferId
    · have heq : row = record := db.outgoing.eq_of_mem_of_key_eq hrow
        (Table.mem_of_find? hrecord) (hid.trans hsame.transferId)
      subst heq
      exact ⟨record', (hmem record').mpr (Or.inl rfl), hsame.transferId, hsame.fromAddress⟩
    · exact ⟨row, (hmem row).mpr (Or.inr ⟨hrow, hid⟩), rfl, rfl⟩

/-- A request is accepted, or closed at once when its sender is not in custody. -/
theorem Db.Trusted.inserted {db db' : Db} (h : db.Trusted) {record : OutgoingTransaction}
    (hinsert : db.outgoing.insert? record = some db'.outgoing)
    (haddresses : db'.addresses = db.addresses)
    (hsigned : db.Issued record.fromAddress ∨ record.status = .failed) :
    db'.Trusted ∧ db.Retains db' := by
  refine ⟨⟨?_, ?_⟩, ?_, ?_⟩
  · rw [haddresses]
    exact h.active
  · intro row hrow
    simp only [Db.Issued, haddresses]
    rcases (Table.mem_insert? hinsert).mp hrow with hold | rfl
    · exact h.signed row hold
    · exact hsigned
  · rw [haddresses]
    exact fun a ha => ha
  · exact fun row hrow => ⟨row, (Table.mem_insert? hinsert).mpr (Or.inl hrow), rfl, rfl⟩

theorem Accepted.trusted {scope : Scope} {payload : Payload} {correlationId : String}
    {db db' : Db} (haccepted : Accepted scope payload correlationId db db')
    (h : db.Trusted) : db'.Trusted ∧ db.Retains db' := by
  cases haccepted with
  | duplicate record hproposed htaken => exact h.congr rfl rfl
  | accepted record hproposed hknown outgoing hinsert =>
      refine h.inserted hinsert rfl (Or.inl ?_)
      obtain ⟨a, ha, haddress⟩ := List.any_eq_true.mp hknown
      exact ⟨a, ha, Subtype.ext (of_decide_eq_true haddress)⟩
  | unknown record hproposed hunknown outgoing hinsert failed hpayload db' hannounces =>
      obtain ⟨outbox, _, rfl⟩ := hannounces
      have hfailed : (record.failedFor unknownAddressReason).transferId =
          record.transferId := rfl
      exact h.inserted (Table.insert?_replace hinsert hfailed) rfl (Or.inr rfl)

theorem Answered.trusted {settings : Settings} {scope : Scope} {row : OutgoingTransaction}
    {db db' : Db} {record : OutgoingTransaction} {answer : Except ChainError ChainHash}
    (hanswered : Answered settings scope row db record answer db') (h : db.Trusted)
    (hrecord : db.outgoing.find? record.transferId = some record)
    (hissued : db.Issued record.fromAddress) : db'.Trusted ∧ db.Retains db' := by
  have haddresses : db'.addresses = db.addresses := by
    cases hanswered with
    | closed txHash hstatus => rfl
    | confirmed answer habandoned hstatus => rfl
    | broadcast txHash hopen payload hpayload db' hannounces =>
        obtain ⟨outbox, _, rfl⟩ := hannounces
        rfl
    | failed answer habandoned hopen reason code payload hpayload db' hannounces =>
        obtain ⟨outbox, _, rfl⟩ := hannounces
        rfl
    | retried answer hretriable reason => rfl
  rcases hanswered.written with houtgoing | ⟨record', hsame, _, houtgoing⟩
  · exact h.congr haddresses houtgoing
  · exact h.saved hrecord hsame haddresses houtgoing (Or.inl hissued)

theorem claimDue_trusted (now limit : Nat) {db : Db} (h : db.Trusted) :
    (claimDue now limit db).2.Trusted ∧ db.Retains (claimDue now limit db).2 ∧
      ∀ row ∈ (claimDue now limit db).1, (claimDue now limit db).2.Claimed row := by
  have hdue : ∀ record ∈ dueRecords now limit db,
      record ∈ db.outgoing.rows ∧ db.Issued record.fromAddress := by
    intro record hrecord
    have hsorted := List.mem_of_mem_take hrecord
    rw [List.mem_insertionSort, Table.select, List.mem_filter] at hsorted
    obtain ⟨hmem, hstatus⟩ := hsorted
    refine ⟨hmem, (h.signed record hmem).resolve_right ?_⟩
    intro hfailed
    simp [OutgoingTransaction.due, hfailed] at hstatus
  refine ⟨⟨h.active, ?_⟩, ⟨fun a ha => ha, ?_⟩, ?_⟩
  · intro record hrecord
    obtain ⟨old, hold, rfl⟩ := List.mem_map.mp hrecord
    split
    next hclaimed => exact Or.inl (hdue old hclaimed).2
    next => exact h.signed old hold
  · intro record hrecord
    refine ⟨_, List.mem_map_of_mem hrecord, ?_⟩
    split <;> exact ⟨rfl, rfl⟩
  · intro row hrow
    obtain ⟨old, hold, rfl⟩ := List.mem_map.mp hrow
    obtain ⟨hmem, hissued⟩ := hdue old hold
    refine ⟨hissued, old.claimed now, ?_, rfl, rfl⟩
    have hmapped := List.mem_map_of_mem (f := fun record =>
      if record ∈ dueRecords now limit db then record.claimed now else record) hmem
    simp only [if_pos hold] at hmapped
    exact hmapped

theorem UpsertedAll.outgoing {scope : Scope} {newId : TransferLog → Uuid}
    {logs : List TransferLog} {db db' : Db} (h : UpsertedAll scope newId logs db db') :
    db'.outgoing = db.outgoing := by
  induction h with
  | nil db => rfl
  | cons hfirst hrest ih =>
      rw [ih]
      cases hfirst <;> rfl

/-- The answer of the node is about a claimed request, and the outgoing watcher is at
rest. -/
def ServiceStep.Signed (db : Db) : ServiceStep → Prop
  | .answer _ row _ => db.Claimed row
  | .check .. => False
  | _ => True

theorem ServiceStep.run_trusted (settings : Settings) {db : Db} (h : db.Trusted)
    {step : ServiceStep} (hsigned : step.Signed db) :
    (step.run settings db).Trusted ∧ db.Retains (step.run settings db) := by
  have hkept : db.Trusted ∧ db.Retains db := ⟨h, .refl db⟩
  cases step with
  | issueAddress ownerRef network generated =>
      apply commit_preserves (I := fun db' : Db => db'.Trusted ∧ db.Retains db') hkept
      apply (getOrCreateAddress_ensures ownerRef network generated db).mono
      · rintro _ db' ⟨addresses, rfl, rfl | ⟨address, hactive, hinsert⟩⟩
        · exact hkept
        · have hmem : ∀ a, a ∈ addresses.rows ↔ a ∈ db.addresses.rows ∨ a = address :=
            fun a => Table.mem_insert? hinsert
          have hretains : db.Retains { db with addresses } :=
            ⟨fun a ha => (hmem a).mpr (Or.inl ha),
              fun record hrecord => ⟨record, hrecord, rfl, rfl⟩⟩
          refine ⟨⟨?_, ?_⟩, hretains⟩
          · intro a ha
            rcases (hmem a).mp ha with hold | rfl
            · exact h.active a hold
            · exact hactive
          · intro record hrecord
            rcases h.signed record hrecord with hissued | hfailed
            · exact Or.inl (hretains.issued hissued)
            · exact Or.inr hfailed
      · exact fun _ _ => trivial
  | scan scope newId plan =>
      apply commit_preserves (I := fun db' : Db => db'.Trusted ∧ db.Retains db') hkept
      apply (scanTx_ensures settings scope newId plan db).mono
      · rintro _ db' ⟨mid, hmid, rfl⟩
        exact h.congr hmid.frame.2 hmid.outgoing
      · exact fun _ _ => trivial
  | reverify scope head found id =>
      apply commit_preserves (I := fun db' : Db => db'.Trusted ∧ db.Retains db') hkept
      apply (reverifyTx_ensures settings scope head found id db).mono
      · rintro _ db' (⟨_, _, rfl⟩ | ⟨d, _, hreverified⟩)
        · exact hkept
        · cases hreverified <;> exact h.congr rfl rfl
      · exact fun _ _ => trivial
  | request scope envelope =>
      apply commit_preserves (I := fun db' : Db => db'.Trusted ∧ db.Retains db') hkept
      apply (dispatch_ensures scope envelope db).mono
      · intro _ db' hdispatched
        cases hdispatched with
        | duplicate => exact hkept
        | ignored processedEvents => exact h.congr rfl rfl
        | accepted processedEvents hrequested db' haccepted =>
            have hcopied : Db.Trusted { db with processedEvents } ∧
                db.Retains { db with processedEvents } := h.congr rfl rfl
            obtain ⟨hclaimed, _⟩ := hcopied
            obtain ⟨htrusted, hretains⟩ := haccepted.trusted hclaimed
            exact ⟨htrusted, hretains.addresses, hretains.outgoing⟩
      · exact fun _ _ => trivial
  | claim now limit =>
      obtain ⟨htrusted, hretains, _⟩ := claimDue_trusted now limit h
      exact ⟨htrusted, hretains⟩
  | answer scope row reply =>
      apply commit_preserves (I := fun db' : Db => db'.Trusted ∧ db.Retains db') hkept
      apply (broadcastTx_ensures settings scope row reply db).mono
      · rintro _ db' (⟨_, rfl⟩ | ⟨record, hrecord, hanswered⟩)
        · exact hkept
        · obtain ⟨hissued, old, hold, hid, hfrom⟩ := hsigned
          have hfound := db.outgoing.find?_of_mem hold
          rw [hid, hrecord, Option.some.injEq] at hfound
          subst hfound
          rw [← hid] at hrecord
          exact hanswered.trusted h hrecord (hfrom ▸ hissued)
      · exact fun _ _ => trivial
  | check scope head transferId seen receipt => exact hsigned.elim
  | relay relaySettings now publishError => exact h.congr rfl rfl

/-! ## The deposits -/

def ServiceStep.logs : ServiceStep → List TransferLog
  | .scan _ _ plan => plan.logs
  | _ => []

/-- A row is about a transaction which had one before, or about a log of the step. -/
def Db.DepositsFrom (db : Db) (logs : List TransferLog) (db' : Db) : Prop :=
  ∀ d' ∈ db'.deposits.rows, (∃ d ∈ db.deposits.rows, d.txHash = d'.txHash) ∨
    ∃ entry ∈ logs, entry.txHash = d'.txHash

theorem Db.DepositsFrom.of_eq {db db' : Db} (h : db'.deposits = db.deposits)
    (logs : List TransferLog) : db.DepositsFrom logs db' := by
  intro d' hd'
  rw [h] at hd'
  exact Or.inl ⟨d', hd', rfl⟩

theorem Deposit.SameLog.txHash {d d' : Deposit} (h : d.SameLog d') : d'.txHash = d.txHash :=
  congrArg (fun id : DepositId => id.2.1) h.identity

theorem ServiceStep.run_depositsFrom (settings : Settings) (db : Db) (step : ServiceStep) :
    db.DepositsFrom step.logs (step.run settings db) := by
  have hkept : db.DepositsFrom step.logs db := .of_eq rfl _
  cases step with
  | issueAddress ownerRef network generated =>
      apply commit_preserves (I := db.DepositsFrom _) hkept
      apply (getOrCreateAddress_ensures ownerRef network generated db).mono
      · rintro _ db' ⟨addresses, rfl, _⟩
        exact hkept
      · exact fun _ _ => trivial
  | scan scope newId plan =>
      apply commit_preserves (I := db.DepositsFrom _) hkept
      apply (scanTx_ensures settings scope newId plan db).mono
      · rintro _ db' ⟨mid, hmid, rfl⟩ d' hd'
        obtain ⟨d, hsame, hold | ⟨entry, hentry, hproposes⟩⟩ := hmid.origin hd'
        · exact Or.inl ⟨d, hold, hsame.txHash.symm⟩
        · exact Or.inr ⟨entry, hentry, hproposes.txHash.symm.trans hsame.txHash.symm⟩
      · exact fun _ _ => trivial
  | reverify scope head found id =>
      apply commit_preserves (I := db.DepositsFrom _) hkept
      apply (reverifyTx_ensures settings scope head found id db).mono
      · rintro _ db' (⟨_, _, rfl⟩ | ⟨d, hd, hreverified⟩)
        · exact hkept
        · obtain ⟨row, hsame, hdeposits, _⟩ := hreverified.written
          intro d' hd'
          have hstored := hd
          rw [← Table.key_of_find? hd, ← hsame.identity] at hstored
          rw [hdeposits, Table.mem_replace _ hstored] at hd'
          left
          rcases hd' with rfl | ⟨hold, _⟩
          · exact ⟨d, Table.mem_of_find? hd, hsame.txHash.symm⟩
          · exact ⟨d', hold, rfl⟩
      · exact fun _ _ => trivial
  | request scope envelope => exact .of_eq (dispatch_apart scope envelope db).deposits _
  | claim now limit => exact hkept
  | answer scope row reply =>
      apply commit_preserves (I := db.DepositsFrom _) hkept
      apply (broadcastTx_ensures settings scope row reply db).mono
      · rintro _ db' (⟨_, rfl⟩ | ⟨record, _, hanswered⟩)
        · exact hkept
        · exact .of_eq hanswered.apart.deposits _
      · exact fun _ _ => trivial
  | check scope head transferId seen receipt =>
      apply commit_preserves (I := db.DepositsFrom _) hkept
      apply (checkTx_ensures settings scope head transferId seen receipt db).mono
      · rintro _ db' (⟨_, _, rfl⟩ | ⟨record, _, hchecked⟩)
        · exact hkept
        · exact .of_eq hchecked.apart.deposits _
      · exact fun _ _ => trivial
  | relay relaySettings now publishError => exact hkept

/-- The row of the log can be inserted. -/
structure Recordable (entry : TransferLog) : Prop where
  network : entry.network.length ≤ 32
  asset : entry.asset = "USDT"
  proposed : ∀ newId, ∃ d, proposedDeposit newId entry = .ok d

theorem proposedDeposit_succeeds (newId : Uuid) {entry : TransferLog}
    {network : Varchar 32} {asset : Varchar 16} {toAddress fromAddress : Varchar 64}
    (hnetwork : varchar 32 entry.network = .ok network)
    (hasset : varchar 16 entry.asset = .ok asset)
    (hto : varchar 64 entry.toAddress = .ok toAddress)
    (hfrom : varchar 64 entry.fromAddress = .ok fromAddress)
    (hcolumns : entry.logIndex < 2 ^ 31 ∧ entry.amount < 10 ^ 78)
    (hpositive : 0 < entry.amount) : ∃ d, proposedDeposit newId entry = .ok d := by
  simp only [proposedDeposit, hnetwork, hasset, hto, hfrom, bind, Except.bind]
  rw [dif_pos hcolumns, dif_pos hpositive]
  exact ⟨_, rfl⟩

theorem detectDeposit_succeeds (scope : Scope) (entry : TransferLog) {d : Deposit}
    (hasset : (getAsset d.asset.val).isSome = true) (db : Db) :
    Ensures (detectDeposit scope entry d) db (fun _ _ => True) fun _ => False := by
  obtain ⟨payload, hpayload⟩ := depositPayload_succeeds hasset 0
  unfold detectDeposit
  rw [hpayload]
  apply Ensures.orRaise_bind ?_ (fun _ he => by cases he)
  intro payload _
  exact enqueue_succeeds (depositEvent_fits scope
    ⟨_, varchar_ok (by decide) (by decide)⟩ payload _ _) db

theorem upsertDeposit_succeeds (scope : Scope) (newId : Uuid) {entry : TransferLog}
    (hfits : Recordable entry) {db : Db} (hdb : db.AssetsKnown) :
    Ensures (upsertDeposit scope newId entry) db (fun _ _ => True) fun _ => False := by
  obtain ⟨proposed, hproposed⟩ := hfits.proposed newId
  have hrow := proposedDeposit_ok hproposed
  have hasset : (getAsset proposed.asset.val).isSome = true := by
    have hvalue := hrow.asset
    rw [hfits.asset] at hvalue
    rw [varchar_eq (by decide) hvalue]
    decide
  unfold upsertDeposit
  rw [hproposed]
  apply Ensures.orRaise_bind ?_ (fun _ he => by cases he)
  rintro _ hsame
  cases hsame
  apply Ensures.query_bind
  cases hfind : db.deposits.find? proposed.identity with
  | none =>
      apply Ensures.modifyDb_bind
      apply Ensures.bind (detectDeposit_succeeds scope entry hasset _)
      exact fun _ _ _ => Ensures.pure trivial
  | some stored =>
      dsimp only
      split
      · have hstored : (getAsset (stored.revived entry).asset.val).isSome = true :=
          hdb.deposits stored (Table.mem_of_find? hfind)
        apply Ensures.modifyDb_bind
        apply Ensures.bind (detectDeposit_succeeds scope entry hstored _)
        exact fun _ _ _ => Ensures.pure trivial
      · exact Ensures.pure trivial

theorem upsertDeposits_succeeds (scope : Scope) (newId : TransferLog → Uuid)
    {logs : List TransferLog} (hfits : ∀ entry ∈ logs, Recordable entry) {db : Db}
    (hdb : db.AssetsKnown) :
    Ensures (upsertDeposits scope newId logs) db (fun _ _ => True) fun _ => False := by
  induction logs generalizing db with
  | nil => exact Ensures.pure trivial
  | cons entry rest ih =>
      have hfirst := (upsertDeposit_succeeds scope (newId entry)
        (hfits entry List.mem_cons_self) hdb).and
        (upsertDeposit_ensures scope (newId entry) entry db)
      unfold upsertDeposits
      apply Ensures.bind (hfirst.mono (fun _ _ h => h) fun _ h => h.1)
      rintro detected mid ⟨_, hupserted⟩
      apply Ensures.bind (ih (fun e he => hfits e (List.mem_cons_of_mem entry he))
        (hupserted.assetsKnown hdb))
      intro more db' _
      split <;> exact Ensures.pure trivial

/-- A run of the scanner which got as far as writing leaves a row for each of its logs. -/
theorem scanTx_records (settings : Settings) (scope : Scope) (newId : TransferLog → Uuid)
    {plan : ScanPlan} (hfits : ∀ entry ∈ plan.logs, Recordable entry) {db : Db}
    (hdb : db.AssetsKnown) {entry : TransferLog} (hentry : entry ∈ plan.logs) :
    ∃ d ∈ (commit (scanTx settings scope newId plan) db).2.deposits.rows,
      d.identity = entry.identity ∧ d.status ≠ .reorged := by
  have hsucceeds : Ensures (scanTx settings scope newId plan) db (fun _ _ => True)
      fun _ => False := by
    unfold scanTx
    apply Ensures.bind (upsertDeposits_succeeds scope newId hfits hdb)
    intro detected mid _
    apply Ensures.modifyDb_bind
    exact Ensures.pure trivial
  obtain ⟨detected, db', hcommit, _⟩ := hsucceeds.commit_returns
  obtain ⟨mid, hmid, rfl⟩ :=
    (scanTx_ensures settings scope newId plan db).commit_ok hcommit
  obtain ⟨d, hd, hlive⟩ := hmid.live_after (fun e he => (hfits e he).network) hentry
  rw [hcommit]
  exact ⟨d, Table.mem_of_find? hd, Table.key_of_find? hd, hlive⟩

/-! ## What a run of the scanner reads -/

/-- The logs which `DepositScanner.run_once` gets from the node. -/
def scanLogs (adapter : ChainAdapter σ) (settings : Settings) (calls : ScanCalls σ)
    (db : Db) : Except ChainError (List TransferLog) := do
  let head ← adapter.getBlockNumber calls.head
  if head = 0 then return []
  else
    let cursor ← scanCursor adapter settings calls.cursor
      (db.scanState.find? settings.network)
    let fromBlock := cursor + 1
    let toBlock := min head (fromBlock + settings.scanBatchBlocks - 1)
    if toBlock < fromBlock then return []
    else fetchLogs adapter calls.logs fromBlock toBlock (activeAddresses db)

/-- What is written is what was read, without the transfers between two addresses in
custody. -/
theorem scanPlan_reads {adapter : ChainAdapter σ} {settings : Settings}
    {calls : ScanCalls σ} {db : Db} {plan : ScanPlan}
    (h : scanPlan adapter settings calls db = .ok (some plan)) :
    ∃ fetched, scanLogs adapter settings calls db = .ok fetched ∧
      plan.logs = externalLogs settings (activeAddresses db) fetched := by
  obtain ⟨head, cursor, fetched, hhead, hpositive, hcursor, htoBlock, hrange, hfetched,
    hlogs, _⟩ := scanPlan_some h
  rw [htoBlock] at hrange hfetched
  refine ⟨fetched, ?_, hlogs⟩
  simp only [scanLogs, hhead, hcursor, bind, Except.bind, if_neg hpositive,
    if_neg (Nat.not_lt.mpr hrange)]
  exact hfetched

/-! ## Runs of the service and the node -/

/-- A run of the scanner which has read and not yet written. -/
structure ScanUnderway where
  watched : List String
  fetched : List TransferLog
  plan : ScanPlan

/-- The two databases, and what has happened: the references of simulated deposits, the
rows which were claimed, the transactions the node took, and what the scanner read. -/
structure CustodyWorld where
  chain : MockChain.State
  db : Db
  references : List String
  claimed : List OutgoingTransaction
  submitted : List ChainHash
  scans : List ScanUnderway

inductive CustodyAction where
  | chain (step : ChainStep)
  | service (step : ServiceStep)
  | claim (now limit : Nat)
  /-- One of the claimed rows is sent. -/
  | send (scope : Scope) (index : Nat)
  | read
  /-- One of the scans which were read is written. -/
  | write (scope : Scope) (newId : TransferLog → Uuid) (index : Nat)

namespace CustodyWorld

def start : CustodyWorld := ⟨.empty, .empty, [], [], [], []⟩

def step (config : MockChain.Config) (settings : Settings) (action : CustodyAction)
    (w : CustodyWorld) : CustodyWorld :=
  match action with
  | .chain chainStep =>
    { w with
      chain := MockChain.chainStep config chainStep w.chain
      references :=
        (chainStep.request.map fun request => request.2.clientRef).toList ++ w.references }
  | .service serviceStep => { w with db := serviceStep.run settings w.db }
  | .claim now limit =>
    { w with
      db := (claimDue now limit w.db).2
      claimed := (claimDue now limit w.db).1 ++ w.claimed }
  | .send scope index =>
    match w.claimed[index]? with
    | none => w
    | some row =>
      let bound := correlationScope scope (row.correlationId.map Subtype.val)
      let (answer, chain) :=
        (MockChain.adapter config).sendTransfer row.sendRequest w.chain
      { w with
        chain
        db := (ServiceStep.answer bound row answer).run settings w.db
        submitted := answer.toOption.toList ++ w.submitted }
  | .read =>
    let adapter := MockChain.adapter config
    match scanPlan adapter settings (.fixed w.chain) w.db,
        scanLogs adapter settings (.fixed w.chain) w.db with
    | .ok (some plan), .ok fetched =>
      { w with scans := ⟨activeAddresses w.db, fetched, plan⟩ :: w.scans }
    | _, _ => w
  | .write scope newId index =>
    match w.scans[index]? with
    | none => w
    | some scan => { w with db := (ServiceStep.scan scope newId scan.plan).run settings w.db }

/-- Nobody else sends transfers, and the outgoing watcher is at rest. -/
def Allowed : CustodyAction → Bool
  | .chain (.sendTransfer _) => false
  | .chain _ => true
  | .service (.issueAddress ..) => true
  | .service (.request ..) => true
  | .service (.reverify ..) => true
  | .service (.relay ..) => true
  | .service _ => false
  | _ => true

/-- The reference of a simulated deposit is no id of a transfer, and the digest tells the
two apart. -/
def Distinct (config : MockChain.Config) (w : CustodyWorld) : Prop :=
  ∀ reference ∈ w.references, ∀ record ∈ w.db.outgoing.rows,
    reference ≠ record.transferId.str ∧
      (txHashOf config reference = txHashOf config record.transferId.str →
        reference = record.transferId.str)

def Admitted (config : MockChain.Config) (settings : Settings) (w : CustodyWorld)
    (action : CustodyAction) : Prop :=
  Allowed action = true ∧ (step config settings action w).Distinct config

end CustodyWorld

/-- The node has the transaction, as the deposit of somebody outside or as a transfer. -/
def SubmittedAs (chain : MockChain.State) (isMint : Bool) (txHash : ChainHash) : Prop :=
  ∃ tx ∈ submissions chain, tx.hash = txHash ∧ tx.isMint = isMint

theorem SubmittedAs.unique {chain : MockChain.State} {isMint isMint' : Bool}
    {txHash : ChainHash} (h : SubmittedAs chain isMint txHash)
    (h' : SubmittedAs chain isMint' txHash) : isMint = isMint' := by
  obtain ⟨_, hmem, hhash, hmint⟩ := h
  obtain ⟨_, hmem', hhash', hmint'⟩ := h'
  obtain ⟨tx, htx, rfl⟩ := List.mem_map.mp hmem
  obtain ⟨tx', htx', rfl⟩ := List.mem_map.mp hmem'
  have heq : tx = tx' :=
    chain.transactions.eq_of_mem_of_key_eq htx htx' (hhash.trans hhash'.symm)
  rw [← hmint, ← hmint', heq]

/-- Every transfer on the chain is from an address in custody, every deposit from
outside. -/
structure Custody (config : MockChain.Config) (settings : Settings) (w : CustodyWorld) :
    Prop where
  consistent : Consistent w.chain
  indices : LogIndicesFit w.chain
  amounts : ∀ tx ∈ submissions w.chain,
    tx.asset = config.asset ∧ 0 < tx.amount ∧ tx.amount < 10 ^ 78
  mints : ∀ tx ∈ submissions w.chain, tx.isMint = true →
    ∃ reference ∈ w.references, tx.hash = txHashOf config reference
  senders : ∀ tx ∈ submissions w.chain, tx.isMint = false → w.db.Issued tx.fromAddress
  trusted : w.db.Trusted
  assets : w.db.AssetsKnown
  claimed : ∀ row ∈ w.claimed, w.db.Claimed row
  submitted : ∀ txHash ∈ w.submitted, SubmittedAs w.chain false txHash
  scans : ∀ scan ∈ w.scans,
    scan.plan.logs = externalLogs settings scan.watched scan.fetched ∧
      ∀ entry ∈ scan.plan.logs, Recordable entry ∧ SubmittedAs w.chain true entry.txHash
  deposits : ∀ d ∈ w.db.deposits.rows, SubmittedAs w.chain true d.txHash

section Steps

variable {config : MockChain.Config} {settings : Settings} {w : CustodyWorld}

/-- A transaction of the service. -/
theorem Custody.run (h : Custody config settings w) (step : ServiceStep)
    (hsigned : step.Signed w.db)
    (hlogs : ∀ entry ∈ step.logs, SubmittedAs w.chain true entry.txHash) :
    Custody config settings { w with db := step.run settings w.db } := by
  obtain ⟨htrusted, hretains⟩ := step.run_trusted settings h.trusted hsigned
  refine ⟨h.consistent, h.indices, h.amounts, h.mints, ?_, htrusted,
    step.run_assetsKnown w.db h.assets, ?_, h.submitted, h.scans, ?_⟩
  · exact fun tx htx hmint => hretains.issued (h.senders tx htx hmint)
  · exact fun row hrow => hretains.claimed (h.claimed row hrow)
  · intro d' hd'
    rcases step.run_depositsFrom settings w.db d' hd' with ⟨d, hd, hhash⟩ |
      ⟨entry, hentry, hhash⟩
    · exact hhash ▸ h.deposits d hd
    · exact hhash ▸ hlogs entry hentry

/-- The node mines or reorganises, and has the submissions it had. -/
theorem Custody.resubmitted (h : Custody config settings w) {chain : MockChain.State}
    (hconsistent : Consistent chain) (hindices : LogIndicesFit chain)
    (hsame : submissions chain = submissions w.chain) :
    Custody config settings { w with chain } := by
  have hnamed : ∀ isMint txHash, SubmittedAs w.chain isMint txHash →
      SubmittedAs chain isMint txHash := by
    intro isMint txHash hnamed
    rwa [SubmittedAs, hsame]
  have hmem : ∀ tx ∈ submissions chain, tx ∈ submissions w.chain :=
    fun tx htx => hsame ▸ htx
  exact ⟨hconsistent, hindices, fun tx htx => h.amounts tx (hmem tx htx),
    fun tx htx => h.mints tx (hmem tx htx), fun tx htx => h.senders tx (hmem tx htx),
    h.trusted, h.assets, h.claimed, fun txHash hsubmitted => hnamed _ _ (h.submitted _ hsubmitted),
    fun scan hscan => ⟨(h.scans scan hscan).1, fun entry hentry =>
      ⟨((h.scans scan hscan).2 entry hentry).1,
        hnamed _ _ ((h.scans scan hscan).2 entry hentry).2⟩⟩,
    fun d hd => hnamed _ _ (h.deposits d hd)⟩

/-- A deposit is simulated, or a transfer from an address in custody is sent. -/
theorem Custody.submits (h : Custody config settings w) {isMint : Bool}
    {request : SendRequest} {answer : Except ChainError ChainHash} {chain : MockChain.State}
    (hresult : MockChain.submit config isMint request w.chain = (answer, chain))
    {references : List String} (hold : ∀ reference ∈ w.references, reference ∈ references)
    (hmint : isMint = true → request.clientRef ∈ references)
    (hsender : isMint = false → ∀ address, varchar 64 request.fromAddress = .ok address →
      w.db.Issued address) :
    Custody config settings { w with chain, references } := by
  have hconsistent : Consistent (MockChain.submit config isMint request w.chain).2 :=
    MockChain.submit_consistent h.consistent
  have hsubmit := submit_submitted config isMint request w.chain
  rw [hresult] at hsubmit hconsistent
  have hweaker : Custody config settings { w with references } := by
    refine ⟨h.consistent, h.indices, h.amounts, ?_, h.senders, h.trusted, h.assets, h.claimed,
      h.submitted, h.scans, h.deposits⟩
    intro tx htx hminted
    obtain ⟨reference, hreference, hhash⟩ := h.mints tx htx hminted
    exact ⟨reference, hold reference hreference, hhash⟩
  cases hsubmit with
  | refused e => exact hweaker
  | known tx hmem hhash => exact hweaker
  | taken tx hhash hsubmitted hisMint hfrom hasset hamount transactions hinsert =>
      have hrows : submissions { w.chain with transactions } = submissions w.chain ++ [tx] := by
        unfold submissions
        rw [Table.insert?_rows hinsert, List.map_append, List.map_singleton, hsubmitted]
      have hmem : ∀ r, r ∈ submissions { w.chain with transactions } ↔
          r ∈ submissions w.chain ∨ r = tx := by
        intro r
        rw [hrows, List.mem_append, List.mem_singleton]
      have hnamed : ∀ isMint txHash, SubmittedAs w.chain isMint txHash →
          SubmittedAs { w.chain with transactions } isMint txHash := by
        rintro isMint txHash ⟨r, hr, hnamed⟩
        exact ⟨r, (hmem r).mpr (Or.inl hr), hnamed⟩
      refine ⟨hconsistent, ?_, ?_, ?_, ?_, h.trusted, h.assets, h.claimed, ?_, ?_, ?_⟩
      · intro r hr logIndex hindex
        rcases (Table.mem_insert? hinsert).mp hr with hr | rfl
        · exact h.indices r hr logIndex hindex
        · rw [← hsubmitted] at hindex
          cases hindex
      · intro r hr
        rcases (hmem r).mp hr with hr | rfl
        · exact h.amounts r hr
        · exact ⟨hasset, hamount⟩
      · intro r hr hminted
        rcases (hmem r).mp hr with hr | rfl
        · exact hweaker.mints r hr hminted
        · exact ⟨request.clientRef, hmint (hisMint.symm.trans hminted), hhash⟩
      · intro r hr hminted
        rcases (hmem r).mp hr with hr | rfl
        · exact h.senders r hr hminted
        · exact hsender (hisMint.symm.trans hminted) _ hfrom
      · exact fun txHash hsent => hnamed _ _ (h.submitted txHash hsent)
      · intro scan hscan
        obtain ⟨hlogs, hentries⟩ := h.scans scan hscan
        refine ⟨hlogs, fun entry hentry => ?_⟩
        obtain ⟨hrecordable, hminted⟩ := hentries entry hentry
        exact ⟨hrecordable, hnamed _ _ hminted⟩
      · exact fun d hd => hnamed _ _ (h.deposits d hd)

/-- The node names the transaction of a claimed row by the id of its transfer, and knows
no deposit under that name. -/
theorem Custody.sent (h : Custody config settings w) (hdistinct : w.Distinct config)
    {row : OutgoingTransaction} (hclaimed : w.db.Claimed row) {txHash : ChainHash}
    {chain : MockChain.State}
    (hresult : MockChain.submit config false row.sendRequest w.chain = (.ok txHash, chain)) :
    SubmittedAs chain false txHash := by
  have hsubmit := submit_submitted config false row.sendRequest w.chain
  rw [hresult] at hsubmit
  obtain ⟨_, record, hrecord, hid, _⟩ := hclaimed
  cases hsubmit with
  | known tx hmem hhash =>
      refine ⟨tx.submitted, mem_submissions hmem, hhash, ?_⟩
      show tx.isMint = false
      by_contra hminted
      obtain ⟨reference, hreference, hsame⟩ := h.mints tx.submitted (mem_submissions hmem)
        (by simpa [MockChain.MockTx.submitted] using hminted)
      obtain ⟨hother, hdigest⟩ := hdistinct reference hreference record hrecord
      apply hother
      apply hdigest
      rw [hid, ← hsame]
      exact hhash
  | taken tx hhash hsubmitted hisMint hfrom hasset hamount transactions hinsert =>
      have hmem : tx ∈ transactions.rows := (Table.mem_insert? hinsert).mpr (Or.inr rfl)
      exact ⟨tx.submitted, mem_submissions (s := { w.chain with transactions }) hmem, hhash,
        hisMint⟩

/-- The columns of the service hold the log of a transaction. -/
theorem Custody.recordable (h : Custody config settings w) (hasset : config.asset = "USDT")
    {entry : TransferLog} (hentry : OnChain config w.chain entry) : Recordable entry := by
  obtain ⟨tx, block, hemitted⟩ := hentry
  obtain rfl := hemitted.entry_eq
  have hmem := mem_submissions hemitted.tx_mem
  obtain ⟨hsame, hpositive, hfits⟩ := h.amounts _ hmem
  have husdt : tx.asset = "USDT" := hsame.trans hasset
  have hindex : tx.logIndex.getD 0 < 2 ^ 31 := by
    cases hvalue : tx.logIndex with
    | none => decide
    | some logIndex =>
        have hbound := h.indices tx hemitted.tx_mem logIndex hvalue
        unfold MockChain.maxTxsPerBlock at hbound
        rw [Option.getD_some]
        omega
  refine ⟨config.network.property.1, husdt, fun newId => ?_⟩
  have husdtFits : varchar 16 tx.asset = .ok ⟨"USDT", by decide, by decide⟩ := by
    rw [husdt]
    exact varchar_ok (by decide) (by decide)
  exact proposedDeposit_succeeds newId
    (varchar_ok config.network.property.1 config.network.property.2) husdtFits
    (varchar_ok tx.toAddress.property.1 tx.toAddress.property.2)
    (varchar_ok tx.fromAddress.property.1 tx.fromAddress.property.2) ⟨hindex, hfits⟩ hpositive

/-- A log from an address which is not in custody is not one of a transfer. -/
theorem Custody.minted (h : Custody config settings w) {entry : TransferLog}
    (hentry : OnChain config w.chain entry)
    (houtside : settings.letterCase.lower entry.fromAddress ∉
      (activeAddresses w.db).map settings.letterCase.lower) :
    SubmittedAs w.chain true entry.txHash := by
  obtain ⟨tx, block, hemitted⟩ := hentry
  obtain rfl := hemitted.entry_eq
  refine ⟨tx.submitted, mem_submissions hemitted.tx_mem, rfl, ?_⟩
  cases hmint : tx.submitted.isMint with
  | true => rfl
  | false =>
      obtain ⟨a, ha, haddress⟩ := h.senders _ (mem_submissions hemitted.tx_mem) hmint
      have hactive : a.address.val ∈ activeAddresses w.db := by
        unfold activeAddresses
        refine List.mem_map_of_mem (List.mem_filter.mpr ⟨ha, ?_⟩)
        simpa using h.trusted.active a ha
      rw [haddress] at hactive
      exact (houtside (List.mem_map_of_mem hactive)).elim

theorem Custody.reads (h : Custody config settings w) (hasset : config.asset = "USDT") :
    Custody config settings (CustodyWorld.step config settings .read w) := by
  simp only [CustodyWorld.step]
  split
  next plan fetched hplan hfetched =>
    obtain ⟨logs, hlogs, hplanned⟩ := scanPlan_reads hplan
    rw [hfetched, Except.ok.injEq] at hlogs
    subst hlogs
    refine ⟨h.consistent, h.indices, h.amounts, h.mints, h.senders, h.trusted, h.assets,
      h.claimed, h.submitted, ?_, h.deposits⟩
    intro scan hscan
    rcases List.mem_cons.mp hscan with rfl | hscan
    · refine ⟨hplanned, fun entry hentry => ?_⟩
      obtain ⟨head, cursor, read, _, _, _, _, _, hread, hkept, _⟩ := scanPlan_some hplan
      obtain ⟨honChain, _, _, houtside⟩ :=
        (mem_fetchLogs h.consistent hread hkept).mp hentry
      exact ⟨h.recordable hasset honChain, h.minted honChain houtside⟩
    · exact h.scans scan hscan
  next => exact h

theorem Custody.chainStep (h : Custody config settings w) {chainStep : ChainStep}
    (hallowed : CustodyWorld.Allowed (.chain chainStep) = true) :
    Custody config settings (CustodyWorld.step config settings (.chain chainStep) w) := by
  cases hrequest : chainStep.request with
  | none =>
      have hnext := h.resubmitted (chainStep_consistent config w.chain chainStep h.consistent)
        (chainStep_logIndicesFit config h.consistent h.indices chainStep)
        (chainStep_submissions config h.consistent hrequest)
      simpa [CustodyWorld.step, hrequest] using hnext
  | some submission =>
      obtain ⟨isMint, request⟩ := submission
      have hmint : isMint = true := by
        cases chainStep with
        | simulateDeposit toAddress amount clientRef =>
            cases hrequest
            rfl
        | sendTransfer request => cases hallowed
        | ensureStarted => cases hrequest
        | tick now => cases hrequest
        | mineBlock draw => cases hrequest
        | orphan depth drop => cases hrequest
        | setFaults rpcAvailable haltMining failNextTransfers => cases hrequest
      have hnext : Custody config settings
          { w with
            chain := (MockChain.submit config isMint request w.chain).2
            references := request.clientRef :: w.references } :=
        h.submits rfl (fun reference hreference => List.mem_cons_of_mem _ hreference)
        (fun _ => List.mem_cons_self) (fun hfalse => by simp [hmint] at hfalse)
      simp only [CustodyWorld.step, hrequest, MockChain.chainStep_submit config w.chain hrequest]
      exact hnext

theorem Custody.sends (h : Custody config settings w) (scope : Scope) (index : Nat)
    (hdistinct : (CustodyWorld.step config settings (.send scope index) w).Distinct config) :
    Custody config settings (CustodyWorld.step config settings (.send scope index) w) := by
  simp only [CustodyWorld.step, MockChain.adapter] at hdistinct ⊢
  cases hrow : w.claimed[index]? with
  | none => exact h
  | some row =>
      have hclaimed := h.claimed row (List.mem_of_getElem? hrow)
      have hsender : ∀ address, varchar 64 row.sendRequest.fromAddress = .ok address →
          w.db.Issued address := by
        intro address haddress
        have hstored : address = row.fromAddress :=
          Subtype.ext (varchar_eq row.fromAddress.property.1 haddress)
        rw [hstored]
        exact hclaimed.1
      cases hresult : MockChain.submit config false row.sendRequest w.chain with
      | mk answer chain =>
          simp only [hrow, hresult] at hdistinct ⊢
          -- the reference was not the id of a transfer before the answer was written
          have hbefore : w.Distinct config := by
            intro reference hreference record hrecord
            obtain ⟨_, hretains⟩ :=
              (ServiceStep.answer _ row answer).run_trusted settings h.trusted hclaimed
            obtain ⟨record', hrecord', hid, _⟩ := hretains.outgoing record hrecord
            have hother := hdistinct reference hreference record' hrecord'
            rwa [hid] at hother
          have hsubmits := h.submits hresult (fun _ hreference => hreference) (by simp)
            fun _ => hsender
          have hnext := hsubmits.run (.answer
            (correlationScope scope (row.correlationId.map Subtype.val)) row answer) hclaimed
            (by simp [ServiceStep.logs])
          refine ⟨hnext.consistent, hnext.indices, hnext.amounts, hnext.mints, hnext.senders,
            hnext.trusted, hnext.assets, hnext.claimed, ?_, hnext.scans, hnext.deposits⟩
          intro txHash htxHash
          cases answer with
          | error e => exact hnext.submitted txHash htxHash
          | ok sent =>
              rcases List.mem_cons.mp htxHash with rfl | hold
              · exact h.sent hbefore hclaimed hresult
              · exact hnext.submitted txHash hold

theorem Custody.step (h : Custody config settings w) (hasset : config.asset = "USDT")
    {action : CustodyAction} (hadmitted : w.Admitted config settings action) :
    Custody config settings (CustodyWorld.step config settings action w) := by
  obtain ⟨hallowed, hdistinct⟩ := hadmitted
  cases action with
  | chain chainStep => exact h.chainStep hallowed
  | service serviceStep =>
      have hsigned : serviceStep.Signed w.db ∧ serviceStep.logs = [] := by
        cases serviceStep with
        | issueAddress ownerRef network generated => exact ⟨trivial, rfl⟩
        | request scope envelope => exact ⟨trivial, rfl⟩
        | reverify scope head found id => exact ⟨trivial, rfl⟩
        | relay relaySettings now publishError => exact ⟨trivial, rfl⟩
        | scan scope newId plan => cases hallowed
        | claim now limit => cases hallowed
        | answer scope row reply => cases hallowed
        | check scope head transferId seen receipt => cases hallowed
      exact h.run serviceStep hsigned.1 (by simp [hsigned.2])
  | claim now limit =>
      have hnext : Custody config settings { w with db := (claimDue now limit w.db).2 } :=
        h.run (.claim now limit) trivial (by simp [ServiceStep.logs])
      obtain ⟨_, _, hrows⟩ := claimDue_trusted now limit h.trusted
      refine ⟨hnext.consistent, hnext.indices, hnext.amounts, hnext.mints, hnext.senders,
        hnext.trusted, hnext.assets, ?_, hnext.submitted, hnext.scans, hnext.deposits⟩
      intro row hrow
      rcases List.mem_append.mp hrow with hnew | hold
      · exact hrows row hnew
      · exact hnext.claimed row hold
  | send scope index => exact h.sends scope index hdistinct
  | read => exact h.reads hasset
  | write scope newId index =>
      simp only [CustodyWorld.step]
      cases hscan : w.scans[index]? with
      | none => exact h
      | some scan =>
          have hentries := (h.scans scan (List.mem_of_getElem? hscan)).2
          exact h.run (.scan scope newId scan.plan) trivial
            fun entry hentry => (hentries entry hentry).2

end Steps

theorem Custody.start (config : MockChain.Config) (settings : Settings) :
    Custody config settings CustodyWorld.start where
  consistent := MockChain.empty_consistent
  indices := by simp [CustodyWorld.start, LogIndicesFit, MockChain.State.empty]
  amounts := by simp [CustodyWorld.start, submissions, MockChain.State.empty]
  mints := by simp [CustodyWorld.start, submissions, MockChain.State.empty]
  senders := by simp [CustodyWorld.start, submissions, MockChain.State.empty]
  trusted := ⟨by simp [CustodyWorld.start, Db.empty], by simp [CustodyWorld.start, Db.empty]⟩
  assets := .empty
  claimed := by simp [CustodyWorld.start]
  submitted := by simp [CustodyWorld.start]
  scans := by simp [CustodyWorld.start]
  deposits := by simp [CustodyWorld.start, Db.empty]

namespace CustodyWorld

/-- In every run no transaction of the broadcaster has a row as a deposit, and every log
which a run of the scanner read from a sender outside of custody has one afterwards. -/
theorem transfers_are_no_deposits {config : MockChain.Config} (hasset : config.asset = "USDT")
    {settings : Settings} {actions : List CustodyAction}
    (hadmitted : AdmittedRun (step config settings) (Admitted config settings) start actions) :
    let w := runSteps (step config settings) start actions
    (∀ txHash ∈ w.submitted, ∀ d ∈ w.db.deposits.rows, d.txHash ≠ txHash) ∧
      ∀ index scan, w.scans[index]? = some scan → ∀ entry ∈ scan.fetched,
        settings.letterCase.lower entry.fromAddress ∉
          scan.watched.map settings.letterCase.lower →
        ∀ scope newId, ∃ d ∈ (step config settings (.write scope newId index) w).db.deposits.rows,
          d.identity = entry.identity ∧ d.status ≠ .reorged := by
  intro w
  have hcustody : Custody config settings w :=
    hadmitted.invariant (I := Custody config settings)
      (fun w _ h hadmitted => h.step hasset hadmitted) (Custody.start config settings)
  refine ⟨?_, ?_⟩
  · intro txHash htxHash d hd heq
    have hdeposit := hcustody.deposits d hd
    rw [heq] at hdeposit
    exact Bool.noConfusion (hdeposit.unique (hcustody.submitted txHash htxHash))
  · intro index scan hscan entry hentry houtside scope newId
    obtain ⟨hlogs, hentries⟩ := hcustody.scans scan (List.mem_of_getElem? hscan)
    have hplanned : entry ∈ scan.plan.logs := by
      rw [hlogs]
      exact List.mem_filter.mpr ⟨hentry, decide_eq_true houtside⟩
    simp only [step, hscan]
    exact scanTx_records settings scope newId (fun e he => (hentries e he).1) hcustody.assets
      hplanned

/-! ### A transfer beside a deposit -/

instance (config : MockChain.Config) (w : CustodyWorld) : Decidable (w.Distinct config) :=
  inferInstanceAs (Decidable (∀ _ ∈ _, ∀ _ ∈ _, _ ≠ _ ∧ (_ = _ → _ = _)))

instance (config : MockChain.Config) (settings : Settings) (w : CustodyWorld)
    (action : CustodyAction) : Decidable (w.Admitted config settings action) :=
  inferInstanceAs (Decidable (_ = true ∧ Distinct _ _))

/-- One address is funded from outside, and pays the other. -/
@[irreducible] def custodyRun : List CustodyAction :=
  [.service (.issueAddress "user-1" "BSC" custodyAddress.address.val),
    .service (.issueAddress "user-2" "BSC" "0x2222222222222222222222222222222222222222"),
    .chain .ensureStarted,
    .chain (.simulateDeposit custodyAddress.address.val 500 "deposit-1"),
    .chain (.mineBlock (someUuid 0)),
    .service (.request someScope (TransferWorld.someRequest 1)), .claim 1000 20,
    .send someScope 0, .chain (.mineBlock (someUuid 1)), .read]

@[irreducible] def custodyEnd : CustodyWorld :=
  runSteps (step .bsc .standard) start custodyRun

/-- The node took the transfer, and the scanner read its log and that of the deposit. -/
theorem custodyRun_facts :
    AdmittedRun (step .bsc .standard) (Admitted .bsc .standard) start custodyRun ∧
      custodyEnd.submitted = [MockChain.txHashOf .bsc (someUuid 1).str] ∧
      ∃ scan ∈ custodyEnd.scans[0]?, scan.fetched.length = 2 ∧ ∃ entry ∈ scan.fetched,
        Settings.standard.letterCase.lower entry.fromAddress ∉
          scan.watched.map Settings.standard.letterCase.lower := by
  decide +kernel

theorem transfer_beside_a_deposit :
    (∀ d ∈ custodyEnd.db.deposits.rows,
        d.txHash ≠ MockChain.txHashOf .bsc (someUuid 1).str) ∧
      ∃ scan ∈ custodyEnd.scans[0]?, scan.fetched.length = 2 ∧ ∃ entry ∈ scan.fetched,
        ∃ d ∈ (step .bsc .standard (.write someScope (fun _ => someUuid 100) 0)
          custodyEnd).db.deposits.rows, d.identity = entry.identity ∧ d.status ≠ .reorged := by
  obtain ⟨hadmitted, hsubmitted, scan, hscan, hlength, entry, hentry, houtside⟩ :=
    custodyRun_facts
  have hend : runSteps (step .bsc .standard) start custodyRun = custodyEnd := by
    unfold custodyEnd
    rfl
  have hasset : MockChain.Config.bsc.asset = "USDT" := rfl
  have hresult := transfers_are_no_deposits hasset hadmitted
  rw [hend] at hresult
  obtain ⟨hnone, hall⟩ := hresult
  refine ⟨fun d hd => hnone _ (by rw [hsubmitted]; exact List.mem_singleton_self _) d hd,
    scan, hscan, hlength, entry, hentry, ?_⟩
  exact hall 0 scan hscan entry hentry houtside someScope _

/-! ### The workers as runs of these steps -/

section Workers

/-- The two databases. -/
def state (w : CustodyWorld) : MockChain.State × Db := (w.chain, w.db)

variable (config : MockChain.Config) (settings : Settings) (w : CustodyWorld)

theorem scanOnce_is_run (scope : Scope) (newId : TransferLog → Uuid) :
    (scanOnce (MockChain.adapter config) settings scope newId (.fixed w.chain) w.db).2 = w.db ∨
      (runSteps (step config settings) w [.read, .write scope newId 0]).db =
        (scanOnce (MockChain.adapter config) settings scope newId (.fixed w.chain) w.db).2 := by
  unfold scanOnce
  cases hplan : scanPlan (MockChain.adapter config) settings (.fixed w.chain) w.db with
  | error e => exact Or.inl rfl
  | ok found =>
      cases found with
      | none => exact Or.inl rfl
      | some plan =>
          right
          obtain ⟨fetched, hfetched, _⟩ := scanPlan_reads hplan
          simp only [runSteps_cons, runSteps_nil, step, hplan, hfetched, List.getElem?_cons_zero,
            ServiceStep.run]
          cases commit (scanTx settings scope newId plan) w.db with
          | mk result db' => cases result <;> rfl

/-- The rows which a run of the broadcaster has claimed are sent one after another. -/
theorem broadcastAll_is_run (scope : Scope) {rows : List OutgoingTransaction} {start : Nat}
    (hrows : ∀ i < rows.length, w.claimed[start + i]? = rows[i]?) :
    ∃ actions, (runSteps (step config settings) w actions).state =
      (broadcastAll (MockChain.adapter config) settings scope rows w.state).2 := by
  induction rows generalizing w start with
  | nil => exact ⟨[], rfl⟩
  | cons row rest ih =>
      have hfirst := hrows 0 (Nat.zero_lt_succ _)
      simp only [Nat.add_zero, List.getElem?_cons_zero] at hfirst
      have hnext : (step config settings (.send scope start) w).state =
          (broadcastOne (MockChain.adapter config) settings scope row w.state).2 := by
        simp only [step, hfirst]
        rfl
      have hclaimed : (step config settings (.send scope start) w).claimed = w.claimed := by
        simp only [step, hfirst]
      unfold broadcastAll at ih ⊢
      cases houtcome :
          (broadcastOne (MockChain.adapter config) settings scope row w.state).1 with
      | none =>
          refine ⟨[.send scope start], ?_⟩
          rw [visitAll_raised houtcome]
          exact hnext
      | some outcome =>
          have hrest : ∀ i < rest.length,
              (step config settings (.send scope start) w).claimed[start + 1 + i]? =
                rest[i]? := by
            intro i hi
            have hi' := hrows (i + 1) (by simpa using hi)
            rw [List.getElem?_cons_succ] at hi'
            rw [hclaimed, ← hi']
            congr 1
            omega
          obtain ⟨actions, hactions⟩ := ih _ hrest
          refine ⟨.send scope start :: actions, ?_⟩
          rw [visitAll_visited houtcome, ← hnext]
          exact hactions

theorem broadcastOnce_is_run (scope : Scope) (limit : Nat) :
    ∃ actions, (runSteps (step config settings) w actions).state =
      (broadcastOnce (MockChain.adapter config) settings scope limit w.chain w.db).2 := by
  have hrows : ∀ i < (claimDue scope.now limit w.db).1.length,
      (step config settings (.claim scope.now limit) w).claimed[0 + i]? =
        (claimDue scope.now limit w.db).1[i]? := by
    intro i hi
    simp only [step, Nat.zero_add]
    exact List.getElem?_append_left hi
  obtain ⟨actions, hactions⟩ := broadcastAll_is_run config settings _ scope hrows
  exact ⟨.claim scope.now limit :: actions, hactions⟩

end Workers

end CustodyWorld
end CryptoWallet.Blockchain
