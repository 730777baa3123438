import CryptoWallet.WalletLedger

/-!
# Users, wallets and the life of a transfer

Creation validates, holds the funds and queues the on-chain request in one
transaction.  The three event handlers then move the transfer: broadcasting
only records the hash, settlement releases the hold and posts both sides,
failure releases the hold or, after settlement, reverses the postings.

Each handler has one lemma which says everything it can do: nothing, or one
`Transition` of one transfer together with the entries and the hold it moves.
-/

namespace CryptoWallet.Wallet

open Tx

def raiseApp {α : Type} (kind : ErrorKind) (detail : String)
    (errors : List (List (String × String))) : WalletTx α :=
  throw (.app ⟨kind, detail, errors⟩)

/-! ## Users and wallets -/

def createUser (letterCase : LetterCase) (newId : Int) (name email : String) :
    WalletTx User := do
  let storedName ← orRaise (varchar 128 name)
  let storedEmail ← orRaise (varchar 255 (letterCase.lower email))
  let user : User := {
    id := newId
    name := storedName.val
    email := storedEmail.val
    status := .active }
  let conflict := "A user with email '" ++ email ++ "' already exists."
  if ← query fun db => db.users.rows.any (·.email = user.email) then
    raiseApp .conflict conflict []
  else
    match ← query (·.users.insert? user) with
    | none => raiseApp .conflict conflict []
    | some users =>
      modifyDb fun db => { db with users }
      return user

def getUser (userId : Int) : WalletTx User := do
  match ← query (·.users.find? userId) with
  | none => raiseApp .notFound ("User " ++ toString userId ++ " does not exist.") []
  | some user => return user

def getWallet (userId : Int) (network asset : String) :
    WalletTx (Option WalletRow) :=
  query (·.wallets.find? (userId, network, asset))

/-- `INSERT INTO wallets ... ON CONFLICT ON CONSTRAINT
uq_wallet_user_network_asset DO NOTHING`; the other keys are not excused. -/
def insertWallet (wallet : WalletRow) : WalletTx Bool := do
  match ← query (·.wallets.insert? wallet) with
  | none => return false
  | some wallets =>
    if ← query fun db => db.wallets.rows.any (·.id = wallet.id) then
      throw (.integrity .walletsPkey)
    else if ← query fun db => db.wallets.rows.any (·.address = wallet.address) then
      throw (.integrity .walletsAddressKey)
    else
      match ← query (·.users.find? wallet.userId) with
      | none => throw (.integrity .walletsUserIdFkey)
      | some _ =>
        modifyDb fun db => { db with wallets }
        return true

def attachWallet (newId : Uuid) (userId : Int) (network asset address : String) :
    WalletTx (WalletRow × Bool) := do
  let storedNetwork ← orRaise (varchar 32 network)
  let storedAsset ← orRaise (varchar 16 asset)
  let storedAddress ← orRaise (varchar 64 address)
  let inserted ← insertWallet {
    id := newId
    userId
    network := storedNetwork.val
    asset := storedAsset.val
    address := storedAddress.val
    status := .active }
  ensureBalance userId asset
  match ← getWallet userId network asset with
  | none => throw .assertionError
  | some wallet => return (wallet, inserted)

def walletByAddress (address : Json) : WalletTx (Option WalletRow) := do
  match ← orRaise (bindText address) with
  -- `address IS NULL` selects nothing, the column is NOT NULL
  | none => return none
  | some text => query fun db => db.wallets.rows.find? (·.address = text)

/-! ## Creating a transfer -/

def requireActiveUsers : List User → WalletTx Unit
  | [] => return ()
  | user :: rest => do
    if user.status ≠ .active then
      raiseApp .conflict ("User " ++ toString user.id ++ " is not active.") []
    else requireActiveUsers rest

def requireActiveWallets : List WalletRow → WalletTx Unit
  | [] => return ()
  | wallet :: rest => do
    if wallet.status ≠ .active then
      raiseApp .walletInactive ("Wallet " ++ wallet.id.str ++ " is not active.") []
    else requireActiveWallets rest

def producer : String := "wallet-service"

structure TransferRequest where
  fromUserId : Int
  toUserId : Int
  asset : String
  amountUnits : Int
  idempotencyKey : String
  network : String
  deriving DecidableEq

def requestedPayload (t : Transfer) (asset : Asset) : Payload :=
  [("transfer_id", .str t.id.str),
    ("from_user_id", .int t.fromUserId),
    ("to_user_id", .int t.toUserId),
    ("asset", .str asset.symbol),
    ("network", .str t.network),
    ("from_address", .str t.fromAddress),
    ("to_address", .str t.toAddress),
    ("amount", .str (formatAmount t.amount asset.decimals)),
    ("amount_units", .str (toString t.amount))]

def insufficientFunds {α : Type} (asset : Asset) (available amount : Int) :
    WalletTx α :=
  raiseApp .insufficientFunds
    ("Available balance is " ++ formatAmount available asset.decimals ++ " " ++
      asset.symbol ++ ", requested " ++ formatAmount amount asset.decimals ++ ".")
    [[("available", formatAmount available asset.decimals),
      ("requested", formatAmount amount asset.decimals),
      ("asset", asset.symbol)]]

/-- `session.add(transfer)` and its flush: every IntegrityError, of the CHECK
constraints as of the keys, becomes the same conflict. -/
def insertTransfer (scope : Scope) (newId : Uuid) (request : TransferRequest)
    (asset : Asset) (fromWallet toWallet : WalletRow) : WalletTx Transfer := do
  let duplicate : WalletTx Transfer :=
    raiseApp .conflict "This transfer has already been created." []
  let idempotencyKey ← orRaise (varchar 128 request.idempotencyKey)
  let symbol ← orRaise (varchar 16 asset.symbol)
  let network ← orRaise (varchar 32 request.network)
  let fromAddress ← orRaise (varchar 64 fromWallet.address)
  let toAddress ← orRaise (varchar 64 toWallet.address)
  let correlationId ← orRaise (bindCorrelation scope)
  if hcheck : 0 < request.amountUnits ∧ request.fromUserId ≠ request.toUserId then
    let transfer : Transfer := {
      id := newId
      idempotencyKey := idempotencyKey.val
      fromUserId := request.fromUserId
      toUserId := request.toUserId
      asset := symbol.val
      network := network.val
      amount := request.amountUnits
      fromAddress := fromAddress.val
      toAddress := toAddress.val
      status := .created
      txHash := none
      failureCode := none
      failureReason := none
      correlationId
      createdAt := scope.now
      updatedAt := scope.now
      settledAt := none
      amountPositive := hcheck.1
      distinctParties := hcheck.2 }
    if ← query fun db =>
        db.transfers.rows.any (·.idempotencyKey = transfer.idempotencyKey) then
      duplicate
    else
      match ← query (·.transfers.insert? transfer) with
      | none => duplicate
      | some transfers =>
        modifyDb fun db => { db with transfers }
        return transfer
  else duplicate

def enqueue (envelope : Envelope) : WalletTx Unit := do
  let outbox ← query (·.outbox)
  let outbox' ← orRaise (enqueueEvent outbox envelope)
  modifyDb fun db => { db with outbox := outbox' }

def createTransfer (scope : Scope) (newId : Uuid) (request : TransferRequest) :
    WalletTx Transfer := do
  if request.fromUserId = request.toUserId then
    raiseApp .validation "A transfer must have two distinct parties." []
  else
    match getAsset request.asset with
    | none => throw (.keyError request.asset)
    | some asset =>
      let sender ← getUser request.fromUserId
      let recipient ← getUser request.toUserId
      requireActiveUsers [sender, recipient]
      let fromWallet ← getWallet request.fromUserId request.network asset.symbol
      let toWallet ← getWallet request.toUserId request.network asset.symbol
      match fromWallet, toWallet with
      | some fromWallet, some toWallet =>
        requireActiveWallets [fromWallet, toWallet]
        -- the row lock on the sender's balance serialises the transfers from it
        let balance ← lockBalance request.fromUserId asset.symbol
        if ← placeHold request.fromUserId asset.symbol request.amountUnits then
          let transfer ← insertTransfer scope newId request asset fromWallet toWallet
          enqueue (newEvent scope .transferRequested (requestedPayload transfer asset)
            producer (some transfer.id.str) none)
          return transfer
        else
          insufficientFunds asset (balance.posted - balance.reserved)
            request.amountUnits
      | fromWallet, _ =>
        let missing :=
          if fromWallet.isNone then request.fromUserId else request.toUserId
        raiseApp .notFound
          ("User " ++ toString missing ++ " has no " ++ asset.symbol ++
            " wallet on " ++ request.network ++ ".") []

/-! ## The event handlers -/

inductive Outcome where
  | processed
  | ignored
  | duplicate
  deriving DecidableEq

def loadForUpdate (transferId : Json) : WalletTx (Option Transfer) := do
  let id ← orRaise (uuidOf transferId)
  match ← query (·.transfers.find? id) with
  | none => return none
  | some t =>
    lockRow (.transfer id)
    return some t

def saveTransfer (t : Transfer) : WalletTx Unit :=
  modifyDb fun db => { db with transfers := db.transfers.replace t }

def Transfer.broadcastedAt (t : Transfer) (now : Nat) (txHash : Option String) :
    Transfer :=
  { t with status := .broadcasted, txHash, updatedAt := now }

def Transfer.confirmedAt (t : Transfer) (now : Nat) (txHash : Option String) :
    Transfer :=
  { t with status := .confirmed, txHash, updatedAt := now, settledAt := some now }

def Transfer.failedAt (t : Transfer) (now : Nat) (failureCode : Option String)
    (failureReason : String) (txHash : Option String) : Transfer :=
  { t with
    status := .failed, failureCode
    failureReason := some failureReason
    txHash
    updatedAt := now }

def optionalText : Option String → Json
  | none => .null
  | some text => .str text

def markBroadcasted (scope : Scope) (payload : Payload) : WalletTx Outcome := do
  match ← loadForUpdate (← orRaise (payload.item "transfer_id")) with
  | none => return .ignored
  | some t =>
    if t.status.isOpen = false then return .duplicate
    else
      let txHash := payload.getD "tx_hash" .null
      -- without a net change the flush writes nothing
      if t.status = .broadcasted ∧ txHash = optionalText t.txHash then
        return .processed
      else
        let stored ← orRaise (bindVarchar 80 txHash)
        saveTransfer (t.broadcastedAt scope.now stored)
        return .processed

/-- `payload.get("tx_hash") or transfer.tx_hash`. -/
def mergedTxHash (payload : Payload) (t : Transfer) :
    Except Failure (Option String) :=
  let txHash := payload.getD "tx_hash" .null
  if txHash.truthy then bindVarchar 80 txHash else .ok t.txHash

def settlementPostings (t : Transfer) : List Posting :=
  [⟨t.fromUserId, -t.amount, .transferDebit, .transfer, t.id.str⟩,
    ⟨t.toUserId, t.amount, .transferCredit, .transfer, t.id.str⟩]

def settleTransfer (scope : Scope) (payload : Payload) : WalletTx Outcome := do
  match ← loadForUpdate (← orRaise (payload.item "transfer_id")) with
  | none => return .ignored
  | some t =>
    if t.status = .confirmed then return .duplicate
    else if t.status = .failed then return .ignored
    else
      releaseHold t.fromUserId t.asset t.amount
      let _ ← postEntries scope t.asset (settlementPostings t)
      let txHash ← orRaise (mergedTxHash payload t)
      saveTransfer (t.confirmedAt scope.now txHash)
      return .processed

def reversalPostings (t : Transfer) : List Posting :=
  [⟨t.fromUserId, t.amount, .reversal, .transfer, t.id.str⟩,
    ⟨t.toUserId, -t.amount, .reversal, .transfer, t.id.str⟩]

/-- Reverse the postings of a settled transfer, release the hold of an open
one. -/
def undoTransfer (scope : Scope) (t : Transfer) : WalletTx Unit :=
  if t.status = .confirmed then do
    let _ ← postEntries scope t.asset (reversalPostings t)
  else releaseHold t.fromUserId t.asset t.amount

def failTransfer (scope : Scope) (payload : Payload) : WalletTx Outcome := do
  match ← loadForUpdate (← orRaise (payload.item "transfer_id")) with
  | none => return .ignored
  | some t =>
    if t.status = .failed then return .duplicate
    else
      let code := payload.getD "code" (.str "UNKNOWN")
      let reason := payload.getD "reason" (.str "transaction failed")
      undoTransfer scope t
      let failureCode ← orRaise (bindVarchar 48 code)
      let failureReason ← orRaise
        (bindString (String.ofList (reason.toStr.toList.take 1000)))
      let txHash ← orRaise (mergedTxHash payload t)
      saveTransfer (t.failedAt scope.now failureCode failureReason txHash)
      return .processed

/-! ## The progress worker -/

def OutboxRow.announces (row : OutboxRow) (t : Transfer) : Bool :=
  row.envelope.eventType = .transferRequested && row.publishedAt.isSome &&
    (row.envelope.payload.get? "transfer_id").bind Json.scalarText = some t.id.str

def advances (outbox : Outbox) (t : Transfer) : Bool :=
  t.status = .created && outbox.rows.any (OutboxRow.announces · t)

def advanced (now : Nat) (outbox : Outbox) (t : Transfer) : Transfer :=
  if advances outbox t then { t with status := .processing, updatedAt := now } else t

theorem advanced_id (now : Nat) (outbox : Outbox) (t : Transfer) :
    (advanced now outbox t).id = t.id := by
  unfold advanced
  split <;> rfl

/-- `TransferProgressWorker.run_once`. -/
def progressOnce (now : Nat) : WalletTx Nat := do
  let rows ← query fun db => db.transfers.select (advances db.outbox)
  lockRows (rows.map fun t => .transfer t.id)
  modifyDb fun db => { db with
    transfers := db.transfers.mapRows (advanced now db.outbox)
      (advanced_id now db.outbox) }
  return rows.length

/-! ## What each operation can do -/

theorem createUser_ensures (db : Db) (letterCase : LetterCase) (newId : Int)
    (name email : String) :
    Ensures (createUser letterCase newId name email) db
      (fun user db' => user.id = newId ∧ ∃ users, db.users.insert? user = some users ∧
        db' = { db with users })
      (RejectedOnlyIf False) := by
  unfold createUser
  apply Ensures.orRaise_bind
  · intro storedName _
    apply Ensures.orRaise_bind
    · intro storedEmail _
      apply Ensures.query_bind
      split
      · exact Ensures.throw (RejectedOnlyIf.of_not rfl)
      · apply Ensures.query_bind
        cases hinsert : db.users.insert? _ with
        | none => exact Ensures.throw (RejectedOnlyIf.of_not rfl)
        | some users =>
            apply Ensures.modifyDb_bind
            exact Ensures.pure ⟨rfl, users, hinsert, rfl⟩
    · intro e he
      exact RejectedOnlyIf.of_not (varchar_not_balanceCheck he)
  · intro e he
    exact RejectedOnlyIf.of_not (varchar_not_balanceCheck he)

/-- An inserted wallet belongs to a user and takes a fresh id and address. -/
structure WalletInserted (db : Db) (wallet : WalletRow)
    (wallets : Table (Int × String × String) WalletRow WalletRow.key) : Prop where
  insert : db.wallets.insert? wallet = some wallets
  freshId : ∀ row ∈ db.wallets.rows, row.id ≠ wallet.id
  freshAddress : ∀ row ∈ db.wallets.rows, row.address ≠ wallet.address
  owner : ∃ user, db.users.find? wallet.userId = some user

theorem insertWallet_ensures (db : Db) (wallet : WalletRow) :
    Ensures (insertWallet wallet) db
      (fun inserted db' =>
        (inserted = false ∧ db' = db) ∨
          (inserted = true ∧ ∃ wallets, WalletInserted db wallet wallets ∧
            db' = { db with wallets }))
      (RejectedOnlyIf False) := by
  unfold insertWallet
  apply Ensures.query_bind
  cases hinsert : db.wallets.insert? wallet with
  | none => exact Ensures.pure (Or.inl ⟨rfl, rfl⟩)
  | some wallets =>
      apply Ensures.query_bind
      split
      · exact Ensures.throw (RejectedOnlyIf.of_not rfl)
      next hid =>
        apply Ensures.query_bind
        split
        · exact Ensures.throw (RejectedOnlyIf.of_not rfl)
        next haddress =>
          apply Ensures.query_bind
          cases howner : db.users.find? wallet.userId with
          | none => exact Ensures.throw (RejectedOnlyIf.of_not rfl)
          | some user =>
              apply Ensures.modifyDb_bind
              apply Ensures.pure
              refine Or.inr ⟨rfl, wallets, ⟨hinsert, ?_, ?_, ⟨user, howner⟩⟩, rfl⟩
              · simpa using hid
              · simpa using haddress

theorem attachWallet_ensures (db : Db) (newId : Uuid) (userId : Int)
    (network asset address : String) :
    Ensures (attachWallet newId userId network asset address) db
      (fun result db' =>
        db'.wallets.find? (userId, network, asset) = some result.1 ∧
        ∃ wallets, Moved { db with wallets } db' [] 0 ∧
          (wallets = db.wallets ∨ ∃ wallet, WalletInserted db wallet wallets))
      (RejectedOnlyIf False) := by
  unfold attachWallet
  apply Ensures.orRaise_bind ?_
    (fun e he => RejectedOnlyIf.of_not (varchar_not_balanceCheck he))
  intro storedNetwork _
  apply Ensures.orRaise_bind ?_
    (fun e he => RejectedOnlyIf.of_not (varchar_not_balanceCheck he))
  intro storedAsset _
  apply Ensures.orRaise_bind ?_
    (fun e he => RejectedOnlyIf.of_not (varchar_not_balanceCheck he))
  intro storedAddress _
  apply Ensures.bind (insertWallet_ensures db _)
  intro inserted db₁ hinserted
  have hwallets : ∃ wallets, db₁ = { db with wallets } ∧
      (wallets = db.wallets ∨ ∃ wallet, WalletInserted db wallet wallets) := by
    rcases hinserted with ⟨_, rfl⟩ | ⟨_, wallets, hwallets, rfl⟩
    · exact ⟨db₁.wallets, rfl, Or.inl rfl⟩
    · exact ⟨wallets, rfl, Or.inr ⟨_, hwallets⟩⟩
  obtain ⟨wallets, rfl, hwallets⟩ := hwallets
  apply Ensures.bind (ensureBalance_ensures _ userId asset)
  rintro _ db₂ ⟨hmoved, _⟩
  apply Ensures.query_bind
  cases hfind : db₂.wallets.find? (userId, network, asset) with
  | none => exact Ensures.throw (RejectedOnlyIf.of_not rfl)
  | some wallet => exact Ensures.pure ⟨hfind, wallets, hmoved, hwallets⟩

theorem walletByAddress_ensures (db : Db) (address : Json) :
    Ensures (walletByAddress address) db
      (fun wallet db' => db' = db ∧
        ∀ w, wallet = some w → ∃ text, bindText address = .ok (some text) ∧
          w ∈ db.wallets.rows ∧ w.address = text)
      (RejectedOnlyIf False) := by
  unfold walletByAddress
  apply Ensures.orRaise_bind
  · intro bound hbound
    cases bound with
    | none => exact Ensures.pure ⟨rfl, by simp⟩
    | some text =>
        apply Ensures.query
        refine ⟨rfl, fun w hw => ⟨text, hbound, List.mem_of_find?_eq_some hw, ?_⟩⟩
        simpa using List.find?_some hw
  · intro e he
    exact RejectedOnlyIf.of_not (bindText_not_balanceCheck he)

/-! ### Creation -/

theorem getUser_ensures (db : Db) (userId : Int) :
    Ensures (getUser userId) db
      (fun user db' => db' = db ∧ db.users.find? userId = some user)
      (RejectedOnlyIf False) := by
  unfold getUser
  apply Ensures.query_bind
  cases hfind : db.users.find? userId with
  | none => exact Ensures.throw (RejectedOnlyIf.of_not rfl)
  | some user => exact Ensures.pure ⟨rfl, rfl⟩

theorem getUser_returns {db : Db} {userId : Int} {user : User}
    (hfind : db.users.find? userId = some user) : Returns (getUser userId) db user db := by
  unfold getUser
  apply Returns.bind (Returns.query _ db)
  rw [hfind]
  exact Returns.pure user db

theorem requireActiveUsers_ensures (db : Db) (users : List User) :
    Ensures (requireActiveUsers users) db (fun _ db' => db' = db)
      (RejectedOnlyIf False) := by
  induction users with
  | nil => exact Ensures.pure rfl
  | cons user rest ih =>
      unfold requireActiveUsers
      split
      · exact Ensures.throw (RejectedOnlyIf.of_not rfl)
      · exact ih

theorem requireActiveWallets_ensures (db : Db) (wallets : List WalletRow) :
    Ensures (requireActiveWallets wallets) db (fun _ db' => db' = db)
      (RejectedOnlyIf False) := by
  induction wallets with
  | nil => exact Ensures.pure rfl
  | cons wallet rest ih =>
      unfold requireActiveWallets
      split
      · exact Ensures.throw (RejectedOnlyIf.of_not rfl)
      · exact ih

/-- A new transfer row carries the request. -/
structure CreatedFrom (scope : Scope) (newId : Uuid) (request : TransferRequest)
    (asset : Asset) (t : Transfer) : Prop where
  id : t.id = newId
  fromUserId : t.fromUserId = request.fromUserId
  toUserId : t.toUserId = request.toUserId
  amount : t.amount = request.amountUnits
  status : t.status = .created
  idempotencyKey : ∃ stored : Varchar 128,
    varchar 128 request.idempotencyKey = .ok stored ∧ t.idempotencyKey = stored.val
  asset : ∃ stored : Varchar 16,
    varchar 16 asset.symbol = .ok stored ∧ t.asset = stored.val
  network : ∃ stored : Varchar 32,
    varchar 32 request.network = .ok stored ∧ t.network = stored.val

theorem insertTransfer_ensures (db : Db) (scope : Scope) (newId : Uuid)
    (request : TransferRequest) (asset : Asset) (fromWallet toWallet : WalletRow) :
    Ensures (insertTransfer scope newId request asset fromWallet toWallet) db
      (fun t db' => CreatedFrom scope newId request asset t ∧
        (∀ row ∈ db.transfers.rows, row.idempotencyKey ≠ t.idempotencyKey) ∧
        ∃ transfers, db.transfers.insert? t = some transfers ∧
          db' = { db with transfers })
      (RejectedOnlyIf False) := by
  have hvarchar : ∀ {limit text e},
      varchar limit text = .error e → RejectedOnlyIf False e :=
    fun h => RejectedOnlyIf.of_not (varchar_not_balanceCheck h)
  unfold insertTransfer
  apply Ensures.orRaise_bind ?_ (fun _ => hvarchar)
  intro idempotencyKey hidempotencyKey
  apply Ensures.orRaise_bind ?_ (fun _ => hvarchar)
  intro symbol hsymbol
  apply Ensures.orRaise_bind ?_ (fun _ => hvarchar)
  intro network hnetwork
  apply Ensures.orRaise_bind ?_ (fun _ => hvarchar)
  intro fromAddress _
  apply Ensures.orRaise_bind ?_ (fun _ => hvarchar)
  intro toAddress _
  apply Ensures.orRaise_bind ?_
    (fun e he => RejectedOnlyIf.of_not (bindCorrelation_not_balanceCheck he))
  intro correlationId _
  split
  next hcheck =>
    apply Ensures.query_bind
    split
    · exact Ensures.throw (RejectedOnlyIf.of_not rfl)
    next hkey =>
      apply Ensures.query_bind
      cases hinsert : db.transfers.insert? _ with
      | none => exact Ensures.throw (RejectedOnlyIf.of_not rfl)
      | some transfers =>
          apply Ensures.modifyDb_bind
          apply Ensures.pure
          refine ⟨?_, ?_, transfers, hinsert, rfl⟩
          · exact ⟨rfl, rfl, rfl, rfl, rfl, ⟨idempotencyKey, hidempotencyKey, rfl⟩,
              ⟨symbol, hsymbol, rfl⟩, ⟨network, hnetwork, rfl⟩⟩
          · simpa using hkey
  next => exact Ensures.throw (RejectedOnlyIf.of_not rfl)

theorem enqueueEvent_not_balanceCheck {outbox : Outbox} {envelope : Envelope}
    {e : Failure} (h : enqueueEvent outbox envelope = .error e) :
    e.isBalanceCheck = false := by
  unfold enqueueEvent at h
  cases htype : varchar 64 envelope.eventType.name with
  | error e₁ =>
      simp only [htype, bind, Except.bind, Except.error.injEq] at h
      rw [← h]
      exact varchar_not_balanceCheck htype
  | ok _ =>
      cases hcorrelation : varchar 64 envelope.correlationId with
      | error e₂ =>
          simp only [htype, hcorrelation, bind, Except.bind,
            Except.error.injEq] at h
          rw [← h]
          exact varchar_not_balanceCheck hcorrelation
      | ok _ => simp [htype, hcorrelation, bind, Except.bind, pure, Except.pure] at h

theorem enqueue_ensures (db : Db) (envelope : Envelope) :
    Ensures (enqueue envelope) db
      (fun _ db' => ∃ outbox, enqueueEvent db.outbox envelope = .ok outbox ∧
        db' = { db with outbox })
      (RejectedOnlyIf False) := by
  unfold enqueue
  apply Ensures.query_bind
  apply Ensures.orRaise_bind
  · intro outbox houtbox
    apply Ensures.modifyDb
    exact ⟨outbox, houtbox, rfl⟩
  · intro e he
    exact RejectedOnlyIf.of_not (enqueueEvent_not_balanceCheck he)

def requestedEvent (scope : Scope) (t : Transfer) (asset : Asset) : Envelope :=
  newEvent scope .transferRequested (requestedPayload t asset) producer
    (some t.id.str) none

/-- Everything `createTransfer` does when it returns: the hold on the sender,
the new row and its event. -/
structure TransferCreated (scope : Scope) (newId : Uuid)
    (request : TransferRequest) (db : Db) (t : Transfer) (db' : Db) : Prop where
  change : ∃ asset mid transfers outbox,
    getAsset request.asset = some asset ∧
    CreatedFrom scope newId request asset t ∧
    Moved db mid [] (holdAt (request.fromUserId, asset.symbol) request.amountUnits) ∧
    mid.transfers.insert? t = some transfers ∧
    enqueueEvent mid.outbox (requestedEvent scope t asset) = .ok outbox ∧
    db' = { mid with transfers, outbox }
  freshKey : ∀ row ∈ db.transfers.rows, row.idempotencyKey ≠ t.idempotencyKey

theorem createTransfer_ensures (db : Db) (scope : Scope) (newId : Uuid)
    (request : TransferRequest) :
    Ensures (createTransfer scope newId request) db
      (TransferCreated scope newId request db)
      (RejectedOnlyIf (request.amountUnits < 0)) := by
  unfold createTransfer
  split
  · exact Ensures.throw (RejectedOnlyIf.of_not rfl)
  cases hasset : getAsset request.asset with
  | none => exact Ensures.throw (RejectedOnlyIf.of_not rfl)
  | some asset =>
      have hfalse : ∀ e, RejectedOnlyIf False e →
          RejectedOnlyIf (request.amountUnits < 0) e :=
        fun e he => he.mono False.elim
      apply Ensures.bind ((getUser_ensures db _).mono (fun _ _ h => h) hfalse)
      rintro sender _ ⟨rfl, _⟩
      apply Ensures.bind ((getUser_ensures _ _).mono (fun _ _ h => h) hfalse)
      rintro recipient db ⟨rfl, _⟩
      apply Ensures.bind
        ((requireActiveUsers_ensures db _).mono (fun _ _ h => h) hfalse)
      rintro _ _ rfl
      apply Ensures.query_bind
      apply Ensures.query_bind
      split
      next fromWallet toWallet _ _ =>
        apply Ensures.bind
          ((requireActiveWallets_ensures _ _).mono (fun _ _ h => h) hfalse)
        rintro _ db rfl
        apply Ensures.bind
          ((lockBalance_ensures db _ _).mono (fun _ _ h => h) hfalse)
        rintro balance db₁ ⟨hlocked, hbalance⟩
        apply Ensures.bind (placeHold_ensures hbalance request.amountUnits)
        rintro held db₂ (⟨rfl, rfl, _⟩ | ⟨rfl, hmoved⟩)
        · exact Ensures.throw (RejectedOnlyIf.of_not rfl)
        · simp only [if_true]
          have hmid := hlocked.trans_left hmoved
          apply Ensures.bind ((insertTransfer_ensures db₂ scope newId request asset
            fromWallet toWallet).mono (fun _ _ h => h) hfalse)
          rintro t _ ⟨hcreated, hkey, transfers, htransfers, rfl⟩
          apply Ensures.bind ((enqueue_ensures _ _).mono (fun _ _ h => h) hfalse)
          rintro _ _ ⟨outbox, houtbox, rfl⟩
          apply Ensures.pure
          constructor
          · exact ⟨asset, db₂, transfers, outbox, hasset, hcreated, hmid, htransfers,
              houtbox, rfl⟩
          · rwa [hmid.frame.transfers] at hkey
      next => exact Ensures.throw (RejectedOnlyIf.of_not rfl)

/-! ### Transitions of one transfer -/

structure SameTerms (t t' : Transfer) : Prop where
  id : t'.id = t.id
  idempotencyKey : t'.idempotencyKey = t.idempotencyKey
  fromUserId : t'.fromUserId = t.fromUserId
  toUserId : t'.toUserId = t.toUserId
  asset : t'.asset = t.asset
  network : t'.network = t.network
  amount : t'.amount = t.amount
  fromAddress : t'.fromAddress = t.fromAddress
  toAddress : t'.toAddress = t.toAddress

theorem SameTerms.sender {t t' : Transfer} (h : SameTerms t t') :
    t'.sender = t.sender := by
  rw [Transfer.sender, Transfer.sender, h.fromUserId, h.asset]

structure Transition (db db' : Db) (t t' : Transfer)
    (entries : List LedgerEntry) (hold : Account → Int) : Prop where
  find : db.transfers.find? t.id = some t
  terms : SameTerms t t'
  change : ∃ mid, Moved db mid entries hold ∧
    db' = { mid with transfers := mid.transfers.replace t' }

/-- Open transfers are covered by what their senders hold. -/
def HoldsCovered (db : Db) : Prop :=
  ∀ t ∈ db.transfers.rows, t.status.isOpen = true →
    t.amount ≤ db.reservedOf t.sender

theorem Db.hasRow_of_reserved {db : Db} {k : Account} (h : 0 < db.reservedOf k) :
    db.hasRow k := by
  unfold Db.reservedOf at h
  cases hfind : db.balances.find? k with
  | none => simp [hfind] at h
  | some b => exact ⟨b, hfind⟩

/-- The id in an event about a transfer. -/
def namedId (payload : Payload) : Option Uuid :=
  match payload.item "transfer_id" with
  | .error _ => none
  | .ok value => (uuidOf value).toOption

/-- The transfer an event names, if the database has it. -/
def Db.named (db : Db) (payload : Payload) : Option Transfer :=
  (namedId payload).bind db.transfers.find?

theorem Db.find?_of_named {db : Db} {payload : Payload} {t : Transfer}
    (h : db.named payload = some t) : db.transfers.find? t.id = some t := by
  obtain ⟨id, _, hfind⟩ := Option.bind_eq_some_iff.mp h
  rwa [Table.key_of_find? hfind]

theorem namedId_of_named {db : Db} {payload : Payload} {t : Transfer}
    (h : db.named payload = some t) : namedId payload = some t.id := by
  obtain ⟨id, hid, hfind⟩ := Option.bind_eq_some_iff.mp h
  rw [hid, Table.key_of_find? hfind]

theorem named_eq_find? {payload : Payload} {transferId : Json} {id : Uuid}
    (hitem : payload.item "transfer_id" = .ok transferId)
    (hid : uuidOf transferId = .ok id) (db : Db) :
    db.named payload = db.transfers.find? id := by
  simp [Db.named, namedId, hitem, hid, Except.toOption]

theorem loadForUpdate_ensures (db : Db) {payload : Payload} {transferId : Json}
    (hitem : payload.item "transfer_id" = .ok transferId) :
    Ensures (loadForUpdate transferId) db
      (fun loaded db' => db' = db ∧ loaded = db.named payload)
      (RejectedOnlyIf False) := by
  unfold loadForUpdate
  apply Ensures.orRaise_bind
  · intro id hid
    rw [named_eq_find? hitem hid]
    apply Ensures.query_bind
    cases hfind : db.transfers.find? id with
    | none => exact Ensures.pure ⟨rfl, rfl⟩
    | some t =>
        apply Ensures.lockRow_bind
        exact Ensures.pure ⟨rfl, rfl⟩
  · intro e he
    exact RejectedOnlyIf.of_not (uuidOf_not_balanceCheck he)

/-- The transfer an event names, if there is one, has got to this status. -/
def Db.Reached (db : Db) (payload : Payload) (status : TransferStatus) : Prop :=
  ∀ t, db.named payload = some t → status.rank ≤ t.status.rank

theorem mergedTxHash_not_balanceCheck {payload : Payload} {t : Transfer}
    {e : Failure} (h : mergedTxHash payload t = .error e) :
    e.isBalanceCheck = false := by
  simp only [mergedTxHash] at h
  split at h
  · exact bindVarchar_not_balanceCheck h
  · cases h

theorem rank_of_closed {status : TransferStatus} (h : status.isOpen = false) :
    TransferStatus.rank .broadcasted ≤ status.rank := by
  cases status <;> simp_all [TransferStatus.isOpen, TransferStatus.rank]

theorem markBroadcasted_ensures (db : Db) (scope : Scope) (payload : Payload) :
    Ensures (markBroadcasted scope payload) db
      (fun _ db' => (db' = db ∧ db.Reached payload .broadcasted) ∨
        ∃ t t', db.named payload = some t ∧
        t.status.isOpen = true ∧ t'.status = .broadcasted ∧
        Transition db db' t t' [] 0)
      (RejectedOnlyIf False) := by
  unfold markBroadcasted
  apply Ensures.orRaise_bind ?_
    (fun e he => RejectedOnlyIf.of_not (item_not_balanceCheck he))
  intro transferId htransferId
  apply Ensures.bind (loadForUpdate_ensures db htransferId)
  rintro loaded db' ⟨hdb, rfl⟩
  obtain rfl := hdb.symm
  cases hnamed : db.named payload with
  | none => exact Ensures.pure (Or.inl ⟨rfl, by simp [Db.Reached, hnamed]⟩)
  | some t =>
      have hfind := Db.find?_of_named hnamed
      have hreached : ∀ {status : TransferStatus}, status.rank ≤ t.status.rank →
          db.Reached payload status := by
        intro status hrank t' ht'
        rw [hnamed, Option.some.injEq] at ht'
        exact ht' ▸ hrank
      simp only
      split
      next hclosed =>
        exact Ensures.pure (Or.inl ⟨rfl, hreached (rank_of_closed hclosed)⟩)
      next hopen =>
        split
        next hsame =>
          exact Ensures.pure (Or.inl ⟨rfl, hreached (by rw [hsame.1])⟩)
        · apply Ensures.orRaise_bind ?_
            (fun e he => RejectedOnlyIf.of_not (bindVarchar_not_balanceCheck he))
          intro stored _
          apply Ensures.modifyDb_bind
          apply Ensures.pure
          refine Or.inr ⟨t, t.broadcastedAt scope.now stored, rfl, ?_, rfl, hfind,
            ⟨rfl, rfl, rfl, rfl, rfl, rfl, rfl, rfl, rfl⟩, db, Moved.refl db, rfl⟩
          simpa using hopen

theorem settleTransfer_ensures {db : Db} (hholds : HoldsCovered db)
    (scope : Scope) (payload : Payload) :
    Ensures (settleTransfer scope payload) db
      (fun _ db' => (db' = db ∧ db.Reached payload .confirmed) ∨
        ∃ t t' candidates, db.named payload = some t ∧
        t.status.isOpen = true ∧ t'.status = .confirmed ∧
        List.Forall₂ (EntryOf scope t.asset)
          (sortPostings (settlementPostings t)) candidates ∧
        Transition db db' t t' (unabsorbed db.entryKeys candidates)
          (holdAt t.sender (-t.amount)))
      (RejectedOnlyIf False) := by
  unfold settleTransfer
  apply Ensures.orRaise_bind ?_
    (fun e he => RejectedOnlyIf.of_not (item_not_balanceCheck he))
  intro transferId htransferId
  apply Ensures.bind (loadForUpdate_ensures db htransferId)
  rintro loaded db' ⟨hdb, rfl⟩
  obtain rfl := hdb.symm
  cases hnamed : db.named payload with
  | none => exact Ensures.pure (Or.inl ⟨rfl, by simp [Db.Reached, hnamed]⟩)
  | some t =>
      have hfind := Db.find?_of_named hnamed
      have hreached : ∀ {status : TransferStatus}, status.rank ≤ t.status.rank →
          db.Reached payload status := by
        intro status hrank t' ht'
        rw [hnamed, Option.some.injEq] at ht'
        exact ht' ▸ hrank
      simp only
      split
      next hconfirmed =>
        exact Ensures.pure (Or.inl ⟨rfl, hreached (by rw [hconfirmed])⟩)
      next hconfirmed =>
        split
        next hfailed =>
          have hrank : TransferStatus.rank .confirmed ≤ t.status.rank := by
            simp [hfailed, TransferStatus.rank]
          exact Ensures.pure (Or.inl ⟨rfl, hreached hrank⟩)
        next hfailed =>
          have hopen : t.status.isOpen = true := by
            cases hstatus : t.status <;> simp_all [TransferStatus.isOpen]
          have hcovered := hholds t (Table.mem_of_find? hfind) hopen
          have hpositive := t.amountPositive
          have hrow : db.hasRow (t.fromUserId, t.asset) :=
            Db.hasRow_of_reserved (lt_of_lt_of_le hpositive hcovered)
          apply Ensures.bind
          · apply (releaseHold_ensures hrow t.amount).mono (fun _ _ h => h)
            intro e he
            refine he.mono ?_
            rintro (hlt | hlt)
            · omega
            · exact absurd hcovered (not_le.mpr hlt)
          rintro _ db₁ hreleased
          have hkeys : db₁.entryKeys = db.entryKeys := by
            simp [hreleased.entryKeys]
          apply Ensures.bind
          · apply (postEntries_ensures db₁ scope t.asset
              (settlementPostings t)).mono (fun _ _ h => h)
            intro e he
            refine he.mono ?_
            rintro ⟨k, hlt⟩
            have havailable := hreleased.available k
            have hnonneg := Db.availableOf_nonneg db k
            have hdistinct := t.distinctParties
            simp only [settlementPostings, debits, List.map_cons, List.map_nil,
              List.sum_cons, List.sum_nil, add_zero] at hlt
            simp only [entriesSum_nil, holdAt] at havailable
            by_cases hk : (t.fromUserId, t.asset) = k
            · have hto : ¬((t.toUserId, t.asset) = k) := by
                rw [← hk]
                intro heq
                exact hdistinct (congrArg Prod.fst heq).symm
              rw [if_pos hk, if_neg hto] at hlt
              rw [if_pos hk] at havailable
              omega
            · rw [if_neg hk] at hlt havailable
              split at hlt <;> omega
          rintro written db₂ ⟨candidates, hcandidates, _, hposted⟩
          rw [hkeys] at hposted
          apply Ensures.orRaise_bind ?_
            (fun e he => RejectedOnlyIf.of_not (mergedTxHash_not_balanceCheck he))
          intro txHash _
          apply Ensures.modifyDb_bind
          apply Ensures.pure
          refine Or.inr ⟨t, t.confirmedAt scope.now txHash, candidates,
            rfl, hopen, rfl, hcandidates, hfind,
            ⟨rfl, rfl, rfl, rfl, rfl, rfl, rfl, rfl, rfl⟩, db₂, ?_, rfl⟩
          simpa [Transfer.sender] using hreleased.trans hposted

theorem undoTransfer_ensures {db : Db} (hholds : HoldsCovered db)
    (scope : Scope) {t : Transfer} (ht : t ∈ db.transfers.rows)
    (hfailed : t.status ≠ .failed) :
    Ensures (undoTransfer scope t) db
      (fun _ db' =>
        (t.status.isOpen = true ∧ Moved db db' [] (holdAt t.sender (-t.amount))) ∨
        (t.status = .confirmed ∧ ∃ candidates,
          List.Forall₂ (EntryOf scope t.asset)
            (sortPostings (reversalPostings t)) candidates ∧
          Moved db db' (unabsorbed db.entryKeys candidates) 0))
      (RejectedOnlyIf (t.status = .confirmed)) := by
  unfold undoTransfer
  split
  next hconfirmed =>
    apply Ensures.bind
    · exact (postEntries_ensures db scope t.asset (reversalPostings t)).mono
        (fun _ _ h => h) (fun e he => he.mono fun _ => hconfirmed)
    rintro written db' ⟨candidates, hcandidates, _, hmoved⟩
    exact Ensures.pure (Or.inr ⟨hconfirmed, candidates, hcandidates, hmoved⟩)
  next hconfirmed =>
    have hopen : t.status.isOpen = true := by
      cases hstatus : t.status <;> simp_all [TransferStatus.isOpen]
    have hcovered := hholds t ht hopen
    have hpositive := t.amountPositive
    have hrow : db.hasRow (t.fromUserId, t.asset) :=
      Db.hasRow_of_reserved (lt_of_lt_of_le hpositive hcovered)
    apply (releaseHold_ensures hrow t.amount).mono
    · intro _ db' hmoved
      exact Or.inl ⟨hopen, hmoved⟩
    · intro e he
      refine he.mono ?_
      rintro (hlt | hlt)
      · omega
      · exact absurd hcovered (not_le.mpr hlt)

theorem failTransfer_ensures {db : Db} (hholds : HoldsCovered db)
    (scope : Scope) (payload : Payload) :
    Ensures (failTransfer scope payload) db
      (fun _ db' => (db' = db ∧ db.Reached payload .failed) ∨
        ∃ t t', db.named payload = some t ∧
        t'.status = .failed ∧
        ((t.status.isOpen = true ∧
            Transition db db' t t' [] (holdAt t.sender (-t.amount))) ∨
          (t.status = .confirmed ∧ ∃ candidates,
            List.Forall₂ (EntryOf scope t.asset)
              (sortPostings (reversalPostings t)) candidates ∧
            Transition db db' t t' (unabsorbed db.entryKeys candidates) 0)))
      (RejectedOnlyIf (∃ t, db.named payload = some t ∧ t.status = .confirmed)) := by
  unfold failTransfer
  apply Ensures.orRaise_bind ?_
    (fun e he => RejectedOnlyIf.of_not (item_not_balanceCheck he))
  intro transferId htransferId
  apply Ensures.bind ((loadForUpdate_ensures db htransferId).mono
    (fun _ _ h => h) (fun e he => he.mono False.elim))
  rintro loaded db' ⟨hdb, rfl⟩
  obtain rfl := hdb.symm
  cases hnamed : db.named payload with
  | none => exact Ensures.pure (Or.inl ⟨rfl, by simp [Db.Reached, hnamed]⟩)
  | some t =>
      have hfind := Db.find?_of_named hnamed
      simp only
      split
      next hfailed =>
        have hreached : db.Reached payload .failed := by
          intro t' ht'
          rw [hnamed, Option.some.injEq] at ht'
          rw [← ht', hfailed]
        exact Ensures.pure (Or.inl ⟨rfl, hreached⟩)
      next hfailed =>
        apply Ensures.bind ((undoTransfer_ensures hholds scope
          (Table.mem_of_find? hfind) hfailed).mono (fun _ _ h => h)
          (fun e he => he.mono fun hconfirmed => ⟨t, rfl, hconfirmed⟩))
        rintro _ db₁ hundone
        apply Ensures.orRaise_bind ?_
          (fun e he => RejectedOnlyIf.of_not (bindVarchar_not_balanceCheck he))
        intro failureCode _
        apply Ensures.orRaise_bind
        · intro failureReason _
          apply Ensures.orRaise_bind ?_
            (fun e he => RejectedOnlyIf.of_not (mergedTxHash_not_balanceCheck he))
          intro txHash _
          apply Ensures.modifyDb_bind
          apply Ensures.pure
          refine Or.inr ⟨t,
            t.failedAt scope.now failureCode failureReason txHash, rfl, rfl, ?_⟩
          rcases hundone with ⟨hopen, hmoved⟩ | ⟨hconfirmed, candidates, hc, hmoved⟩
          · exact Or.inl ⟨hopen, hfind,
              ⟨rfl, rfl, rfl, rfl, rfl, rfl, rfl, rfl, rfl⟩, db₁, hmoved, rfl⟩
          · exact Or.inr ⟨hconfirmed, candidates, hc, hfind,
              ⟨rfl, rfl, rfl, rfl, rfl, rfl, rfl, rfl, rfl⟩, db₁, hmoved, rfl⟩
        · intro e he
          refine RejectedOnlyIf.of_not ?_
          unfold bindString at he
          split at he <;> cases he
          rfl

theorem progressOnce_ensures (db : Db) (now : Nat) :
    Ensures (progressOnce now) db
      (fun _ db' => db' = { db with
        transfers := db.transfers.mapRows (advanced now db.outbox)
          (advanced_id now db.outbox) })
      (RejectedOnlyIf False) := by
  unfold progressOnce
  apply Ensures.query_bind
  apply Ensures.lockRows_bind
  apply Ensures.modifyDb_bind
  exact Ensures.pure rfl

end CryptoWallet.Wallet
