import CryptoWallet.TransferRuns

/-!
# Nonces of the web3 backend

The allocator reads the nonces of the table of outgoing transactions, and nothing
writes them there.  So every transfer of every sender is signed with nonce 0.
-/

namespace CryptoWallet.Blockchain

open Tx

/-! ## The allocator -/

/-- `nonce_allocator`. -/
def nonceAllocator (db : Db) (address clientRef : String) : Except Failure Nat := do
  let transferId ← uuidOf (.str clientRef)
  match (db.outgoing.find? transferId).bind OutgoingTransaction.nonce with
  | some existing => return existing
  | none =>
    let sent := db.outgoing.select (·.fromAddress.val = address)
    match (sent.filterMap OutgoingTransaction.nonce).max? with
    | some highest => return highest + 1
    | none => return 0

/-- A nonce which `Web3ChainAdapter.send_transfer` signed with. -/
structure NonceUse where
  sender : String
  clientRef : String
  nonce : Nat
  deriving DecidableEq

/-- `send_transfer` up to the nonce; the address checksum is the library's. -/
def signingNonce (toChecksumAddress : String → Except Failure String) (db : Db)
    (request : SendRequest) : Except Failure NonceUse := do
  let sender ← toChecksumAddress request.fromAddress
  let _ ← toChecksumAddress request.toAddress
  let nonce ← nonceAllocator db sender request.clientRef
  return ⟨sender, request.clientRef, nonce⟩

/-! ## Runs of the service -/

/-- The database, and the nonces which were signed with so far. -/
structure NonceWorld where
  db : Db
  used : List NonceUse

/-- The node may give any answer, and the receipts may be anything. -/
inductive NonceStep where
  | request (scope : Scope) (envelope : Envelope)
  | claim (now limit : Nat)
  | send (request : SendRequest)
  | answer (scope : Scope) (row : OutgoingTransaction)
      (answer : Except ChainError ChainHash)
  | check (scope : Scope) (head : Nat) (transferId : Uuid) (seen : SeenRecord)
      (receipt : Option TxReceipt)

namespace NonceWorld

def start (addresses : Table String Address Address.owner) : NonceWorld :=
  ⟨{ Db.empty with addresses }, []⟩

def step (toChecksumAddress : String → Except Failure String) (settings : Settings) :
    NonceStep → NonceWorld → NonceWorld
  | .request scope envelope, w => { w with db := (commit (dispatch scope envelope) w.db).2 }
  | .claim now limit, w => { w with db := (claimDue now limit w.db).2 }
  | .send request, w =>
    match signingNonce toChecksumAddress w.db request with
    | .error _ => w
    | .ok use => { w with used := w.used ++ [use] }
  | .answer scope row answer, w =>
    { w with db := (commit (broadcastTx settings scope row answer) w.db).2 }
  | .check scope head transferId seen receipt, w =>
    { w with db := (commit (checkTx settings scope head transferId seen receipt) w.db).2 }

/-- Two calls for one transfer use one nonce. -/
def Stable (used : List NonceUse) : Prop :=
  ∀ use ∈ used, ∀ use' ∈ used, use.clientRef = use'.clientRef → use.nonce = use'.nonce

/-- Two transfers of one sender use two nonces. -/
def Unshared (used : List NonceUse) : Prop :=
  ∀ use ∈ used, ∀ use' ∈ used, use.sender = use'.sender →
    use.clientRef ≠ use'.clientRef → use.nonce ≠ use'.nonce

/-- No sender has called for more than one transfer. -/
def OneTransferEach (used : List NonceUse) : Prop :=
  ∀ use ∈ used, ∀ use' ∈ used, use.sender = use'.sender → use.clientRef = use'.clientRef

instance (used : List NonceUse) : Decidable (Unshared used) :=
  inferInstanceAs (Decidable (∀ use ∈ used, _))

end NonceWorld

/-! ## Nothing persists a nonce -/

def Db.NoNonces (db : Db) : Prop := ∀ record ∈ db.outgoing.rows, record.nonce = none

theorem Db.NoNonces.written {db db' : Db} (h : db.NoNonces) {record : OutgoingTransaction}
    (hrecord : db.outgoing.find? record.transferId = some record)
    (hwritten : db'.outgoing = db.outgoing ∨ ∃ record', record.SameRequest record' ∧
      db'.outgoing = db.outgoing.replace record') : db'.NoNonces := by
  intro r hr
  rcases hwritten with hsame | ⟨record', hrequest, hreplace⟩
  · rw [hsame] at hr
    exact h r hr
  · have hkey : db.outgoing.find? record'.transferId = some record := by
      rw [hrequest.transferId]
      exact hrecord
    rw [hreplace] at hr
    rcases (Table.mem_replace _ hkey).mp hr with rfl | ⟨hr, _⟩
    · rw [hrequest.nonce]
      exact h record (Table.mem_of_find? hrecord)
    · exact h r hr

theorem Db.NoNonces.inserted {db : Db} (h : db.NoNonces) {record : OutgoingTransaction}
    {outgoing : Table Uuid OutgoingTransaction OutgoingTransaction.transferId}
    (hinsert : db.outgoing.insert? record = some outgoing) (hrecord : record.Untouched) :
    ({ db with outgoing } : Db).NoNonces := by
  intro r hr
  rcases (Table.mem_insert? hinsert).mp hr with hr | rfl
  · exact h r hr
  · exact hrecord.nonce

theorem Accepted.noNonces {scope : Scope} {payload : Payload} {correlationId : String}
    {db db' : Db} (haccepted : Accepted scope payload correlationId db db')
    (h : db.NoNonces) : db'.NoNonces := by
  cases haccepted with
  | duplicate record hproposed htaken => exact h
  | accepted record hproposed hknown outgoing hinsert =>
      exact h.inserted hinsert (proposedOutgoing_untouched hproposed)
  | unknown record hproposed hunknown outgoing hinsert failed hpayload db' hannounces =>
      obtain ⟨outbox, _, rfl⟩ := hannounces
      have hstored : outgoing.find? record.transferId = some record :=
        (Table.find?_insert? hinsert _).trans (if_pos rfl)
      have hrequest : record.SameRequest (record.failedFor unknownAddressReason) :=
        ⟨rfl, rfl, rfl, rfl, rfl, rfl, rfl, rfl⟩
      exact (h.inserted hinsert (proposedOutgoing_untouched hproposed)).written hstored
        (Or.inr ⟨_, hrequest, rfl⟩)

theorem commit_dispatch_noNonces {scope : Scope} {envelope : Envelope} {db : Db}
    (h : db.NoNonces) : (commit (dispatch scope envelope) db).2.NoNonces := by
  apply commit_preserves h
  apply (dispatch_ensures scope envelope db).mono
  · intro _ db' hdispatched
    cases hdispatched with
    | duplicate => exact h
    | ignored processedEvents => exact h
    | accepted processedEvents hrequested db' haccepted => exact haccepted.noNonces h
  · exact fun _ _ => trivial

theorem commit_broadcastTx_noNonces {settings : Settings} {scope : Scope}
    {row : OutgoingTransaction} {answer : Except ChainError ChainHash} {db : Db}
    (h : db.NoNonces) : (commit (broadcastTx settings scope row answer) db).2.NoNonces := by
  apply commit_preserves h
  apply (broadcastTx_ensures settings scope row answer db).mono
  · rintro _ db' (⟨_, rfl⟩ | ⟨record, hrecord, hanswered⟩)
    · exact h
    · have hkey := Table.key_of_find? hrecord
      rw [← hkey] at hrecord
      apply h.written hrecord
      rcases hanswered.written with hsame | ⟨record', hrequest, _, hreplace⟩
      · exact Or.inl hsame
      · exact Or.inr ⟨record', hrequest, hreplace⟩
  · exact fun _ _ => trivial

theorem commit_checkTx_noNonces {settings : Settings} {scope : Scope} {head : Nat}
    {transferId : Uuid} {seen : SeenRecord} {receipt : Option TxReceipt} {db : Db}
    (h : db.NoNonces) :
    (commit (checkTx settings scope head transferId seen receipt) db).2.NoNonces := by
  apply commit_preserves h
  apply (checkTx_ensures settings scope head transferId seen receipt db).mono
  · rintro _ db' (⟨_, _, rfl⟩ | ⟨record, hrecord, hchecked⟩)
    · exact h
    · have hkey := Table.key_of_find? hrecord
      rw [← hkey] at hrecord
      exact h.written hrecord hchecked.written
  · exact fun _ _ => trivial

theorem claimDue_noNonces {now limit : Nat} {db : Db} (h : db.NoNonces) :
    (claimDue now limit db).2.NoNonces := by
  intro r hr
  obtain ⟨record, hrecord, rfl⟩ := List.mem_map.mp hr
  split
  · exact h record hrecord
  · exact h record hrecord

/-- Without a stored nonce the allocator gives 0 to everybody. -/
theorem nonceAllocator_eq_zero {db : Db} (h : db.NoNonces) {address clientRef : String}
    {nonce : Nat} (hnonce : nonceAllocator db address clientRef = .ok nonce) :
    nonce = 0 := by
  unfold nonceAllocator at hnonce
  obtain ⟨transferId, _, hnonce⟩ := bind_eq_ok.mp hnonce
  have hexisting : (db.outgoing.find? transferId).bind OutgoingTransaction.nonce = none := by
    cases hfind : db.outgoing.find? transferId with
    | none => rfl
    | some record => exact h record (Table.mem_of_find? hfind)
  have hsent : (db.outgoing.select (·.fromAddress.val = address)).filterMap
      OutgoingTransaction.nonce = [] := by
    rw [List.filterMap_eq_nil_iff]
    exact fun record hrecord => h record (List.mem_of_mem_filter hrecord)
  simp only [hexisting, hsent, List.max?_nil] at hnonce
  cases hnonce
  rfl

namespace NonceWorld

structure Inv (w : NonceWorld) : Prop where
  noNonces : w.db.NoNonces
  zero : ∀ use ∈ w.used, use.nonce = 0

theorem step_inv {toChecksumAddress : String → Except Failure String} {settings : Settings}
    (w : NonceWorld) (action : NonceStep) (h : w.Inv) :
    (step toChecksumAddress settings action w).Inv := by
  cases action with
  | request scope envelope => exact ⟨commit_dispatch_noNonces h.noNonces, h.zero⟩
  | claim now limit => exact ⟨claimDue_noNonces h.noNonces, h.zero⟩
  | answer scope row answer => exact ⟨commit_broadcastTx_noNonces h.noNonces, h.zero⟩
  | check scope head transferId seen receipt =>
      exact ⟨commit_checkTx_noNonces h.noNonces, h.zero⟩
  | send request =>
      simp only [step]
      cases hsign : signingNonce toChecksumAddress w.db request with
      | error e => exact h
      | ok use =>
          refine ⟨h.noNonces, ?_⟩
          intro use' huse'
          rcases List.mem_append.mp huse' with hold | hnew
          · exact h.zero use' hold
          · rw [List.mem_singleton.mp hnew]
            unfold signingNonce at hsign
            obtain ⟨sender, _, hsign⟩ := bind_eq_ok.mp hsign
            obtain ⟨_, _, hsign⟩ := bind_eq_ok.mp hsign
            obtain ⟨nonce, hnonce, hsign⟩ := bind_eq_ok.mp hsign
            cases hsign
            exact nonceAllocator_eq_zero h.noNonces hnonce

/-- The nonces of a run are stable and unshared if and only if no sender has called for
two transfers. -/
theorem nonces_unshared_iff (toChecksumAddress : String → Except Failure String)
    (settings : Settings) (addresses : Table String Address Address.owner)
    (steps : List NonceStep) :
    let used := (runSteps (step toChecksumAddress settings) (start addresses) steps).used
    (Stable used ∧ Unshared used) ↔ OneTransferEach used := by
  intro used
  have hstart : (start addresses).Inv :=
    ⟨fun record hrecord => by simp [start, Db.empty] at hrecord,
      fun use huse => by simp [start] at huse⟩
  have hzero : ∀ use ∈ used, use.nonce = 0 :=
    (runSteps_preserves (I := fun w : NonceWorld => w.Inv) step_inv hstart steps).zero
  have hequal : ∀ use ∈ used, ∀ use' ∈ used, use.nonce = use'.nonce := by
    intro use huse use' huse'
    rw [hzero use huse, hzero use' huse']
  constructor
  · rintro ⟨_, hunshared⟩ use huse use' huse' hsender
    by_contra hne
    exact hunshared use huse use' huse' hsender hne (hequal use huse use' huse')
  · intro hone
    exact ⟨fun use huse use' huse' _ => hequal use huse use' huse',
      fun use huse use' huse' hsender hne =>
        (hne (hone use huse use' huse' hsender)).elim⟩

/-! ### Two transfers of one sender -/

/-- Both transfers are requested and claimed, then both are sent. -/
def sharedRun : List NonceStep :=
  [.request someScope (TransferWorld.someRequest 1),
    .request someScope (TransferWorld.someRequest 2), .claim 1000 20] ++
    (dueRecords 1000 20 (runSteps (step .ok .standard) (start Db.custody.addresses)
      [.request someScope (TransferWorld.someRequest 1),
        .request someScope (TransferWorld.someRequest 2)]).db).map fun row => .send row.sendRequest

theorem two_transfers_share_a_nonce :
    ¬Unshared (runSteps (step .ok .standard) (start Db.custody.addresses) sharedRun).used := by
  decide +kernel

end NonceWorld
end CryptoWallet.Blockchain
