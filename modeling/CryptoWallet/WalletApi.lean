import CryptoWallet.WalletInvariant
import CryptoWallet.CanonicalJson

/-!
# POST /transfers and its idempotency keys

The key is claimed and completed in the transaction of the transfer it
protects.  A second request with the key finds the stored response, or is
refused when its fingerprint differs.  The fingerprint hashes what a request
denotes once the asset, the network and the amount are resolved, so different
spellings of one request replay each other and nothing else does.
-/

namespace CryptoWallet.Wallet

open Tx

/-- SHA-256 in hexadecimal, assumed free of collisions. -/
structure Sha256 where
  hexdigest : String → String
  collisionFree : Function.Injective hexdigest
  hexadecimal : ∀ text, ∀ c ∈ (hexdigest text).toList, c ∈ "0123456789abcdef".toList

theorem hexChar_mem :
    ∀ digit < 16, Uuid.hexChar digit ∈ "0123456789abcdef".toList := by
  decide

theorem hexDigits_six_inj {c d : Char}
    (h : Uuid.hexDigits 6 c.toNat = Uuid.hexDigits 6 d.toNat) : c = d := by
  have hread : ∀ c : Char,
      readNumeral 16 (Uuid.hexDigits 6 c.toNat) = some c.toNat := by
    intro c
    have hle := CanonicalJson.toNat_le c
    rw [Uuid.readNumeral_hexDigits 5 c.toNat, Nat.mod_eq_of_lt]
    exact lt_of_le_of_lt hle (by decide)
  have hnat : c.toNat = d.toNat := by
    have hsome := hread c
    rw [h, hread d] at hsome
    exact (Option.some.inj hsome).symm
  rw [← Char.ofNat_toNat c, hnat, Char.ofNat_toNat]

theorem spelled_injective {s t : List Char}
    (h : (s.flatMap fun c => Uuid.hexDigits 6 c.toNat) =
      t.flatMap fun c => Uuid.hexDigits 6 c.toNat) : s = t := by
  induction s generalizing t with
  | nil =>
      cases t with
      | nil => rfl
      | cons d rest =>
          have hlength := congrArg List.length h
          simp [Uuid.hexDigits_length] at hlength
          omega
  | cons c rest ih =>
      cases t with
      | nil =>
          have hlength := congrArg List.length h
          simp [Uuid.hexDigits_length] at hlength
      | cons d rest' =>
          rw [List.flatMap_cons, List.flatMap_cons] at h
          obtain ⟨hdigits, hrest⟩ := List.append_inj h
            (by rw [Uuid.hexDigits_length, Uuid.hexDigits_length])
          rw [hexDigits_six_inj hdigits, ih hrest]

/-- A digest which spells out the code points is free of collisions. -/
def Sha256.spelled : Sha256 where
  hexdigest text :=
    String.ofList (text.toList.flatMap fun c => Uuid.hexDigits 6 c.toNat)
  collisionFree := by
    intro text text' h
    have hlists := congrArg String.toList h
    simp only [String.toList_ofList] at hlists
    exact String.toList_inj.mp (spelled_injective hlists)
  hexadecimal := by
    intro text c hc
    simp only [String.toList_ofList, List.mem_flatMap] at hc
    obtain ⟨_, _, hc⟩ := hc
    obtain ⟨digit, hdigit, rfl⟩ := Uuid.mem_hexDigits hc
    exact hexChar_mem digit hdigit

structure ApiSettings where
  defaultNetwork : String
  sha256 : Sha256

/-! ## Requests -/

def isAmountText (text : List Char) : Bool :=
  let whole := text.takeWhile (· ≠ '.')
  let point := text.dropWhile (· ≠ '.')
  let isDigits := fun (limit : Nat) (digits : List Char) =>
    1 ≤ digits.length && digits.length ≤ limit &&
      digits.all fun c => (decimalDigit? c).isSome
  isDigits 30 whole && (point = [] || isDigits 18 (point.drop 1))

def isKeyChar (c : Char) : Bool :=
  ('A' ≤ c && c ≤ 'Z') || ('a' ≤ c && c ≤ 'z') || ('0' ≤ c && c ≤ '9') ||
    c = '.' || c = '_' || c = ':' || c = '-'

/-- A body which passed its field validation. -/
structure CreateTransferRequest where
  fromUserId : Int
  toUserId : Int
  asset : String
  amount : String
  idempotencyKey : String
  network : Option String
  fromUserIdPositive : 1 ≤ fromUserId
  toUserIdPositive : 1 ≤ toUserId
  assetFits : asset.length ≤ 16
  amountText : isAmountText amount.toList = true
  amountNonZero : (amount.toList.any fun c =>
    (decimalDigit? c).any (· ≠ 0)) = true
  keyLength : 4 ≤ idempotencyKey.length ∧ idempotencyKey.length ≤ 128
  keyText : idempotencyKey.toList.all isKeyChar = true

structure PostResponse where
  statusCode : Nat
  idempotentReplay : Bool
  body : TransferResponse
  deriving DecidableEq

def transferResponse (t : Transfer) : Except Failure TransferResponse :=
  match getAsset t.asset with
  | none => .error (.keyError t.asset)
  | some asset => .ok {
      id := t.id.str
      idempotencyKey := t.idempotencyKey
      fromUserId := t.fromUserId
      toUserId := t.toUserId
      asset := t.asset
      network := t.network
      amount := formatAmount t.amount asset.decimals
      status := t.status.name
      txHash := t.txHash
      failureCode := t.failureCode
      failureReason := t.failureReason
      correlationId := t.correlationId
      createdAt := t.createdAt
      updatedAt := t.updatedAt
      settledAt := t.settledAt }

/-! ## Idempotency keys -/

def fingerprint (sha256 : Sha256)
    (payload : List (String × CanonicalJson.Scalar)) : String :=
  sha256.hexdigest (CanonicalJson.dumps payload)

def placeholderStatus : Nat := 0

def claim (scope key requestHash : String) :
    WalletTx (Option IdempotencyKey) := do
  let storedScope ← orRaise (varchar 64 scope)
  let storedKey ← orRaise (varchar 128 key)
  match ← query (·.idempotencyKeys.insert?
      ⟨storedScope.val, storedKey.val, requestHash, placeholderStatus, none, none⟩) with
  | some idempotencyKeys =>
    modifyDb fun db => { db with idempotencyKeys }
    return none
  | none =>
    let inProgress : WalletTx (Option IdempotencyKey) :=
      raiseApp .idempotencyInProgress
        "This idempotency key is being processed. Retry in a moment." []
    match ← query (·.idempotencyKeys.find? (scope, key)) with
    | none => inProgress
    | some existing =>
      if existing.requestHash ≠ requestHash then
        raiseApp .idempotencyConflict
          "This idempotency key was already used with a different request body." []
      else if existing.responseStatus = placeholderStatus then inProgress
      else return some existing

def complete (scope key : String) (status : Nat) (body : TransferResponse)
    (resourceId : String) : WalletTx Unit := do
  match ← query (·.idempotencyKeys.find? (scope, key)) with
  | none => return ()
  | some row =>
    modifyDb fun db => { db with
      idempotencyKeys := db.idempotencyKeys.replace { row with
        responseStatus := status
        responseBody := some body
        resourceId := some resourceId } }

/-! ## The route -/

def transferScope : String := "transfers"

def resolveAsset (symbol : String) : WalletTx Asset :=
  match getAsset symbol with
  | none => raiseApp .validation ("Asset '" ++ symbol ++ "' is not supported.")
      [[("field", "asset"), ("message", "unsupported asset")]]
  | some asset => return asset

def resolveAmount (amount : String) (asset : Asset) : WalletTx Int :=
  match parseAmount (.text amount) asset.decimals with
  | .ok units => return units
  | .error (.amountError message) => raiseApp .validation message
      [[("field", "amount"), ("message", message)]]
  | .error .overflow => throw .arithmeticError

def resolveNetwork (settings : ApiSettings) (network : Option String) : String :=
  match network with
  | none => settings.defaultNetwork
  | some name => if name = "" then settings.defaultNetwork else name

def fingerprintFields (request : TransferRequest) :
    List (String × CanonicalJson.Scalar) :=
  [("from_user_id", .int request.fromUserId),
    ("to_user_id", .int request.toUserId),
    ("asset", .str request.asset),
    ("network", .str request.network),
    ("amount_units", .str (toString request.amountUnits))]

def postTransfer (settings : ApiSettings) (scope : Scope) (newId : Uuid)
    (body : CreateTransferRequest) : WalletTx PostResponse := do
  let asset ← resolveAsset body.asset
  let network := resolveNetwork settings body.network
  let amountUnits ← resolveAmount body.amount asset
  let request : TransferRequest := {
    fromUserId := body.fromUserId
    toUserId := body.toUserId
    asset := asset.symbol
    amountUnits
    idempotencyKey := body.idempotencyKey
    network }
  let requestHash := fingerprint settings.sha256 (fingerprintFields request)
  match ← claim transferScope body.idempotencyKey requestHash with
  | some replay =>
    match replay.responseBody with
    | none => throw .valueError
    | some stored => return ⟨replay.responseStatus, true, stored⟩
  | none =>
    let transfer ← createTransfer scope newId request
    let response ← orRaise (transferResponse transfer)
    complete transferScope body.idempotencyKey 202 response transfer.id.str
    return ⟨202, false, response⟩

/-! ## What a request denotes -/

/-- The request after resolving asset, network and amount. -/
def resolved (settings : ApiSettings) (body : CreateTransferRequest) :
    Option TransferRequest :=
  match getAsset body.asset with
  | none => none
  | some asset =>
    match parseAmount (.text body.amount) asset.decimals with
    | .error _ => none
    | .ok amountUnits => some {
        fromUserId := body.fromUserId
        toUserId := body.toUserId
        asset := asset.symbol
        amountUnits
        idempotencyKey := body.idempotencyKey
        network := resolveNetwork settings body.network }

theorem fingerprint_inj {sha256 : Sha256} {request request' : TransferRequest}
    (hkey : request.idempotencyKey = request'.idempotencyKey)
    (h : fingerprint sha256 (fingerprintFields request) =
      fingerprint sha256 (fingerprintFields request')) :
    request = request' := by
  have hperm := CanonicalJson.dumps_inj (sha256.collisionFree h)
  have hmem : ∀ field ∈ fingerprintFields request,
      field ∈ fingerprintFields request' := fun _ => hperm.mem_iff.mp
  simp only [fingerprintFields, List.mem_cons, List.not_mem_nil, or_false,
    forall_eq_or_imp, forall_eq, Prod.mk.injEq] at hmem
  simp only [String.reduceEq, false_and, false_or, or_false, true_and,
    CanonicalJson.Scalar.int.injEq, CanonicalJson.Scalar.str.injEq] at hmem
  obtain ⟨hfrom, hto, hasset, hnetwork, hamount⟩ := hmem
  have hunits : request.amountUnits = request'.amountUnits :=
    Int.repr_injective hamount
  cases request
  cases request'
  simp_all

/-! ## Specifications -/

def completedRow (key requestHash : String) (response : TransferResponse)
    (resourceId : String) : IdempotencyKey where
  scope := transferScope
  key
  requestHash
  responseStatus := 202
  responseBody := some response
  resourceId := some resourceId

/-- What a request which returns has done: replayed the stored response, or
created one transfer and one completed key. -/
inductive Posted (settings : ApiSettings) (scope : Scope) (newId : Uuid)
    (request : TransferRequest) (db : Db) : PostResponse → Db → Prop where
  | replayed {row : IdempotencyKey} {stored : TransferResponse}
      (find : db.idempotencyKeys.find?
        (transferScope, request.idempotencyKey) = some row)
      (hash : row.requestHash =
        fingerprint settings.sha256 (fingerprintFields request))
      (status : row.responseStatus ≠ placeholderStatus)
      (body : row.responseBody = some stored) :
      Posted settings scope newId request db ⟨row.responseStatus, true, stored⟩ db
  | created {t : Transfer} {response : TransferResponse} {db₁ : Db}
      {claimed idempotencyKeys : Table (String × String) IdempotencyKey
        IdempotencyKey.primaryKey}
      (transfer : TransferCreated scope newId request
        { db with idempotencyKeys := claimed } t db₁)
      (rendered : transferResponse t = .ok response)
      (insert : db.idempotencyKeys.insert? (completedRow request.idempotencyKey
        (fingerprint settings.sha256 (fingerprintFields request))
        response t.id.str) = some idempotencyKeys) :
      Posted settings scope newId request db ⟨202, false, response⟩
        { db₁ with idempotencyKeys }

theorem claim_ensures (db : Db) (scope key requestHash : String)
    (hscope : scope.length ≤ 64) (hkey : key.length ≤ 128) :
    Ensures (claim scope key requestHash) db
      (fun claimed db' =>
        (∃ row, claimed = some row ∧ db' = db ∧
          db.idempotencyKeys.find? (scope, key) = some row ∧
          row.requestHash = requestHash ∧
          row.responseStatus ≠ placeholderStatus) ∨
        (claimed = none ∧ ∃ idempotencyKeys, db.idempotencyKeys.insert?
            ⟨scope, key, requestHash, placeholderStatus, none, none⟩ =
              some idempotencyKeys ∧
          db' = { db with idempotencyKeys }))
      (RejectedOnlyIf False) := by
  unfold claim
  apply Ensures.orRaise_bind ?_
    (fun e he => RejectedOnlyIf.of_not (varchar_not_balanceCheck he))
  intro storedScope hstoredScope
  apply Ensures.orRaise_bind ?_
    (fun e he => RejectedOnlyIf.of_not (varchar_not_balanceCheck he))
  intro storedKey hstoredKey
  rw [varchar_eq hscope hstoredScope, varchar_eq hkey hstoredKey]
  apply Ensures.query_bind
  cases hinsert : db.idempotencyKeys.insert?
      ⟨scope, key, requestHash, placeholderStatus, none, none⟩ with
  | some idempotencyKeys =>
      apply Ensures.modifyDb_bind
      exact Ensures.pure (Or.inr ⟨rfl, idempotencyKeys, rfl, rfl⟩)
  | none =>
      apply Ensures.query_bind
      cases hfind : db.idempotencyKeys.find? (scope, key) with
      | none => exact Ensures.throw (RejectedOnlyIf.of_not rfl)
      | some existing =>
          simp only
          split
          · exact Ensures.throw (RejectedOnlyIf.of_not rfl)
          next hhash =>
            split
            · exact Ensures.throw (RejectedOnlyIf.of_not rfl)
            next hstatus =>
              apply Ensures.pure
              exact Or.inl ⟨existing, rfl, rfl, rfl, not_not.mp hhash, hstatus⟩

theorem complete_ensures {db : Db} {scope key : String} {row : IdempotencyKey}
    (hfind : db.idempotencyKeys.find? (scope, key) = some row) (status : Nat)
    (body : TransferResponse) (resourceId : String) :
    Ensures (complete scope key status body resourceId) db
      (fun _ db' => db' = { db with
        idempotencyKeys := db.idempotencyKeys.replace { row with
          responseStatus := status
          responseBody := some body
          resourceId := some resourceId } })
      (RejectedOnlyIf False) := by
  unfold complete
  apply Ensures.query_bind
  simp only [hfind]
  exact Ensures.modifyDb rfl

theorem TransferCreated.idempotencyKeys {scope : Scope} {newId : Uuid}
    {request : TransferRequest} {db db' : Db} {t : Transfer}
    (h : TransferCreated scope newId request db t db') :
    db'.idempotencyKeys = db.idempotencyKeys := by
  obtain ⟨asset, mid, transfers, outbox, _, _, hmoved, _, _, rfl⟩ := h.change
  exact hmoved.frame.idempotencyKeys

theorem transferResponse_not_balanceCheck {t : Transfer} {e : Failure}
    (h : transferResponse t = .error e) : e.isBalanceCheck = false := by
  unfold transferResponse at h
  split at h <;> cases h
  rfl

theorem resolveAsset_ensures (db : Db) (symbol : String) :
    Ensures (resolveAsset symbol) db
      (fun asset db' => db' = db ∧ getAsset symbol = some asset)
      (RejectedOnlyIf False) := by
  unfold resolveAsset
  cases hasset : getAsset symbol with
  | none => exact Ensures.throw (RejectedOnlyIf.of_not rfl)
  | some asset => exact Ensures.pure ⟨rfl, rfl⟩

theorem resolveAmount_ensures (db : Db) (amount : String) (asset : Asset) :
    Ensures (resolveAmount amount asset) db
      (fun units db' => db' = db ∧
        parseAmount (.text amount) asset.decimals = .ok units)
      (RejectedOnlyIf False) := by
  unfold resolveAmount
  cases hamount : parseAmount (.text amount) asset.decimals with
  | ok units => exact Ensures.pure ⟨rfl, rfl⟩
  | error failure =>
      cases failure with
      | amountError message => exact Ensures.throw (RejectedOnlyIf.of_not rfl)
      | overflow => exact Ensures.throw (RejectedOnlyIf.of_not rfl)

theorem postTransfer_ensures (db : Db) (settings : ApiSettings) (scope : Scope)
    (newId : Uuid) (body : CreateTransferRequest) :
    Ensures (postTransfer settings scope newId body) db
      (fun response db' => ∃ request, resolved settings body = some request ∧
        Posted settings scope newId request db response db')
      (RejectedOnlyIf False) := by
  unfold postTransfer
  apply Ensures.bind (resolveAsset_ensures db body.asset)
  rintro asset db' ⟨hdb, hasset⟩
  obtain rfl := hdb.symm
  apply Ensures.bind (resolveAmount_ensures db body.amount asset)
  rintro amountUnits db' ⟨hdb, hamount⟩
  obtain rfl := hdb.symm
  have hnonneg := parseAmount_nonneg hamount
  have hresolved : resolved settings body = some {
      fromUserId := body.fromUserId
      toUserId := body.toUserId
      asset := asset.symbol
      amountUnits
      idempotencyKey := body.idempotencyKey
      network := resolveNetwork settings body.network } := by
    simp only [resolved, hasset, hamount]
  generalize hrequest : TransferRequest.mk _ _ _ _ _ _ = request
    at hresolved ⊢
  have hkey : request.idempotencyKey = body.idempotencyKey := by
    rw [← hrequest]
  have hunits : request.amountUnits = amountUnits := by
    rw [← hrequest]
  rw [← hkey]
  apply Ensures.bind (claim_ensures db transferScope request.idempotencyKey _
    (by decide) (by rw [hkey]; exact body.keyLength.2))
  rintro claimed db₁ (⟨row, rfl, hdb, hfind, hhash, hstatus⟩ |
    ⟨rfl, idempotencyKeys, hinsert, rfl⟩)
  · obtain rfl := hdb.symm
    simp only
    cases hbody : row.responseBody with
    | none => exact Ensures.throw (RejectedOnlyIf.of_not rfl)
    | some stored =>
        exact Ensures.pure ⟨request, hresolved,
          Posted.replayed hfind hhash hstatus hbody⟩
  · apply Ensures.bind
    · apply (createTransfer_ensures _ scope newId request).mono (fun _ _ h => h)
      intro e he
      refine he.mono ?_
      rw [hunits]
      omega
    intro t db₂ hcreated
    apply Ensures.orRaise_bind ?_
      (fun e he => RejectedOnlyIf.of_not (transferResponse_not_balanceCheck he))
    intro response hresponse
    have hfind : db₂.idempotencyKeys.find?
        (transferScope, request.idempotencyKey) =
          some ⟨transferScope, request.idempotencyKey,
            fingerprint settings.sha256 (fingerprintFields request),
            placeholderStatus, none, none⟩ := by
      rw [hcreated.idempotencyKeys, Table.find?_insert? hinsert]
      exact if_pos rfl
    apply Ensures.bind (complete_ensures hfind 202 response t.id.str)
    rintro _ _ rfl
    apply Ensures.pure
    refine ⟨request, hresolved, Posted.created hcreated hresponse ?_⟩
    rw [hcreated.idempotencyKeys]
    exact Table.insert?_replace hinsert rfl

theorem Posted.sound {settings : ApiSettings} {scope : Scope} {newId : Uuid}
    {request : TransferRequest} {db db' : Db} {response : PostResponse}
    (h : Sound db) (hposted : Posted settings scope newId request db response db') :
    Sound db' := by
  cases hposted with
  | replayed => exact h
  | @created t response db₁ claimed _ hcreated _ _ =>
      have hclaimed : Sound { db with idempotencyKeys := claimed } :=
        h.congr rfl rfl rfl
      exact (hcreated.sound hclaimed).congr rfl rfl rfl

theorem postTransfer_sound {db : Db} (h : Sound db) (settings : ApiSettings)
    (scope : Scope) (newId : Uuid) (body : CreateTransferRequest) :
    Ensures (postTransfer settings scope newId body) db (fun _ => Sound)
      (RejectedOnlyIf False) := by
  apply (postTransfer_ensures db settings scope newId body).mono
  · rintro response db' ⟨request, _, hposted⟩
    exact hposted.sound h
  · exact fun _ he => he

end CryptoWallet.Wallet
