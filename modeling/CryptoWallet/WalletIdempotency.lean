import CryptoWallet.WalletSystem

/-!
# Idempotency of POST /transfers

In a run of the served system transfers are only created through the route.
Then the keys and the transfers are created and kept together, so they are in
bijection, and the response which a key has got is the one it gets for ever.
-/

namespace CryptoWallet.Wallet

open Tx

def Step.served : Step → Bool
  | .createTransfer _ _ _ => false
  | _ => true

/-- A step of the served system, where the route is the only caller of
`create_transfer`. -/
abbrev ServedStep := { s : Step // s.served = true }

def runServed (config : Config) (steps : List ServedStep) : Db :=
  run config (steps.map Subtype.val)

/-! ## Keys and transfers -/

/-- The keys are those of the transfers, and every one is completed. -/
structure KeysMatch (db : Db) : Prop where
  keys : db.idempotencyKeys.rows.map IdempotencyKey.key =
    db.transfers.rows.map Transfer.idempotencyKey
  completed : ∀ row ∈ db.idempotencyKeys.rows,
    row.scope = transferScope ∧ row.responseStatus = 202

/-- No key is dropped or changed. -/
def KeysKept (db db' : Db) : Prop :=
  ∀ k row, db.idempotencyKeys.find? k = some row →
    db'.idempotencyKeys.find? k = some row

theorem KeysMatch.empty : KeysMatch Db.empty := by
  constructor <;> simp [Db.empty]

theorem KeysKept.refl (db : Db) : KeysKept db db :=
  fun _ _ h => h

theorem Evolved.transferKeys {db db' : Db} (h : Evolved db db') :
    db'.transfers.rows.map Transfer.idempotencyKey =
      db.transfers.rows.map Transfer.idempotencyKey := by
  have hforward := h.transfers
  generalize db.transfers.rows = rows at hforward
  generalize db'.transfers.rows = rows' at hforward
  induction hforward with
  | nil => rfl
  | cons hrow _ ih =>
      rw [List.map_cons, List.map_cons, ih, hrow.terms.idempotencyKey]

theorem Evolved.keysMatch {db db' : Db} (hevolved : Evolved db db')
    (h : KeysMatch db) : KeysMatch db' := by
  constructor
  · rw [hevolved.idempotencyKeys, hevolved.transferKeys]
    exact h.keys
  · rw [hevolved.idempotencyKeys]
    exact h.completed

theorem Evolved.keysKept {db db' : Db} (h : Evolved db db') :
    KeysKept db db' := by
  intro k row hfind
  rwa [h.idempotencyKeys]

theorem TransferCreated.idempotencyKey_eq {scope : Scope} {newId : Uuid}
    {request : TransferRequest} {db db' : Db} {t : Transfer}
    (h : TransferCreated scope newId request db t db')
    (hlength : request.idempotencyKey.length ≤ 128) :
    t.idempotencyKey = request.idempotencyKey := by
  obtain ⟨asset, mid, transfers, outbox, _, hcreated, _⟩ := h.change
  obtain ⟨stored, hstored, hkey⟩ := hcreated.idempotencyKey
  rw [hkey, varchar_eq hlength hstored]

section Posted

variable {settings : ApiSettings} {scope : Scope} {newId : Uuid}
  {request : TransferRequest} {db db' : Db} {response : PostResponse}

theorem Posted.keysMatch (hposted : Posted settings scope newId request db response db')
    (hlength : request.idempotencyKey.length ≤ 128) (h : KeysMatch db) :
    KeysMatch db' := by
  cases hposted with
  | replayed => exact h
  | created hcreated _ hinsert =>
      constructor
      · rw [Table.insert?_rows hinsert, hcreated.rows, List.map_append,
          List.map_append, h.keys, List.map_singleton, List.map_singleton,
          hcreated.idempotencyKey_eq hlength]
        rfl
      · intro row hrow
        rcases (Table.mem_insert? hinsert).mp hrow with hrow | rfl
        · exact h.completed row hrow
        · exact ⟨rfl, rfl⟩

theorem Posted.keysKept (hposted : Posted settings scope newId request db response db') :
    KeysKept db db' := by
  cases hposted with
  | replayed => exact KeysKept.refl db
  | created _ _ hinsert =>
      intro k row hfind
      rw [Table.find?_insert? hinsert, if_neg]
      · exact hfind
      · rintro rfl
        rw [Table.insert?_free hinsert] at hfind
        cases hfind

end Posted

theorem resolved_key {settings : ApiSettings} {body : CreateTransferRequest}
    {request : TransferRequest} (h : resolved settings body = some request) :
    request.idempotencyKey = body.idempotencyKey := by
  unfold resolved at h
  split at h
  · cases h
  · split at h
    · cases h
    · cases h
      rfl

/-- What every served step keeps. -/
theorem served_ensures {db : Db} (h : Sound db) (config : Config) (s : ServedStep) :
    Ensures (stepTx config s.val) db
      (fun _ db' => KeysKept db db' ∧ (KeysMatch db → KeysMatch db'))
      (fun _ => True) := by
  obtain ⟨s, hs⟩ := s
  cases hcreates : s.creates with
  | false =>
      apply (stepTx_evolves h config hcreates).mono
      · intro _ db' hevolved
        exact ⟨hevolved.keysKept, hevolved.keysMatch⟩
      · exact fun _ _ => trivial
  | true =>
      cases s with
      | postTransfer scope newId body =>
          apply Ensures.discard
          apply (postTransfer_ensures db config.api scope newId body).mono
          · rintro response db' ⟨request, hresolved, hposted⟩
            refine ⟨hposted.keysKept, hposted.keysMatch ?_⟩
            rw [resolved_key hresolved]
            exact body.keyLength.2
          · exact fun _ _ => trivial
      | createTransfer scope newId request => cases hs
      | createUser _ _ _ | attachWallet _ _ _ _ _ | relay _ _ | progress _
      | dispatch _ _ => cases hcreates

theorem step_keysKept {db : Db} (h : Sound db) (config : Config) (s : ServedStep) :
    KeysKept db (step config s.val db) :=
  commit_preserves (KeysKept.refl db)
    ((served_ensures h config s).mono (fun _ _ h => h.1) (fun _ h => h))

theorem step_keysMatch {db : Db} (h : Sound db) (hkeys : KeysMatch db)
    (config : Config) (s : ServedStep) : KeysMatch (step config s.val db) :=
  commit_preserves hkeys
    ((served_ensures h config s).mono (fun _ _ h => h.2 hkeys) (fun _ h => h))

/-- What holds of the keys at the end of a run of served steps. -/
theorem runSteps_keys {db : Db} (h : Sound db) (hkeys : KeysMatch db)
    (config : Config) (steps : List ServedStep) :
    KeysMatch (runSteps (step config) db (steps.map Subtype.val)) ∧
      KeysKept db (runSteps (step config) db (steps.map Subtype.val)) := by
  induction steps generalizing db with
  | nil => exact ⟨hkeys, KeysKept.refl db⟩
  | cons s rest ih =>
      rw [List.map_cons, runSteps_cons]
      have hrest := ih (step_sound h config s.val) (step_keysMatch h hkeys config s)
      refine ⟨hrest.1, ?_⟩
      intro k row hfind
      exact hrest.2 k row (step_keysKept h config s k row hfind)

/-! ## The bijection -/

theorem KeysMatch.keys_nodup {db : Db} (h : KeysMatch db) :
    (db.idempotencyKeys.rows.map IdempotencyKey.key).Nodup := by
  apply List.Nodup.map_on ?_ (List.Nodup.of_map _ db.idempotencyKeys.nodup)
  intro row hrow row' hrow' hkey
  apply db.idempotencyKeys.eq_of_mem_of_key_eq hrow hrow'
  rw [IdempotencyKey.primaryKey, IdempotencyKey.primaryKey,
    (h.completed row hrow).1, (h.completed row' hrow').1, hkey]

/-- Rows and transfers are in bijection by key. -/
theorem KeysMatch.bijection {db : Db} (h : KeysMatch db) :
    (∀ t ∈ db.transfers.rows, ∃! row, row ∈ db.idempotencyKeys.rows ∧
      row.scope = transferScope ∧ row.key = t.idempotencyKey) ∧
    (∀ row ∈ db.idempotencyKeys.rows, row.scope = transferScope →
      ∃! t, t ∈ db.transfers.rows ∧ t.idempotencyKey = row.key) := by
  have hkeys := h.keys_nodup
  have htransfers : (db.transfers.rows.map Transfer.idempotencyKey).Nodup :=
    h.keys ▸ hkeys
  constructor
  · intro t ht
    have hmem := List.mem_map_of_mem (f := Transfer.idempotencyKey) ht
    rw [← h.keys] at hmem
    obtain ⟨row, hrow, hkey⟩ := List.mem_map.mp hmem
    refine ⟨row, ⟨hrow, (h.completed row hrow).1, hkey⟩, ?_⟩
    rintro row' ⟨hrow', _, hkey'⟩
    exact List.inj_on_of_nodup_map hkeys hrow' hrow (hkey'.trans hkey.symm)
  · intro row hrow _
    have hmem := List.mem_map_of_mem (f := IdempotencyKey.key) hrow
    rw [h.keys] at hmem
    obtain ⟨t, ht, hkey⟩ := List.mem_map.mp hmem
    refine ⟨t, ⟨ht, hkey⟩, ?_⟩
    rintro t' ⟨ht', hkey'⟩
    exact List.inj_on_of_nodup_map htransfers ht' ht (hkey'.trans hkey.symm)

/-! ## A key which has been accepted -/

/-- The key of the request is completed with this response. -/
def Stored (settings : ApiSettings) (request : TransferRequest)
    (response : TransferResponse) (db : Db) : Prop :=
  ∃ row, db.idempotencyKeys.find? (transferScope, request.idempotencyKey) = some row ∧
    row.requestHash = fingerprint settings.sha256 (fingerprintFields request) ∧
    row.responseStatus = 202 ∧ row.responseBody = some response

theorem Stored.kept {settings : ApiSettings} {request : TransferRequest}
    {response : TransferResponse} {db db' : Db}
    (h : Stored settings request response db) (hkept : KeysKept db db') :
    Stored settings request response db' := by
  obtain ⟨row, hfind, hrow⟩ := h
  exact ⟨row, hkept _ row hfind, hrow⟩

theorem Posted.stored {settings : ApiSettings} {scope : Scope} {newId : Uuid}
    {request : TransferRequest} {db db' : Db} {response : PostResponse}
    (hposted : Posted settings scope newId request db response db')
    (h : KeysMatch db) :
    response.statusCode = 202 ∧ Stored settings request response.body db' := by
  cases hposted with
  | @replayed row stored hfind hhash _ hbody =>
      have hstatus := (h.completed row (Table.mem_of_find? hfind)).2
      exact ⟨hstatus, row, hfind, hhash, hstatus, hbody⟩
  | created _ _ hinsert =>
      have hfind := Table.find?_insert? hinsert
        (transferScope, request.idempotencyKey)
      exact ⟨rfl, _, hfind.trans (if_pos rfl), rfl, rfl, rfl⟩

def keyReused : AppError where
  kind := .idempotencyConflict
  detail := "This idempotency key was already used with a different request body."
  errors := []

theorem CreateTransferRequest.key_plain (body : CreateTransferRequest) :
    '\x00' ∉ body.idempotencyKey.toList := by
  intro hmem
  have hchar := List.all_eq_true.mp body.keyText _ hmem
  exact absurd hchar (by decide)

theorem CreateTransferRequest.key_varchar (body : CreateTransferRequest) :
    varchar 128 body.idempotencyKey =
      .ok ⟨body.idempotencyKey, body.keyLength.2, body.key_plain⟩ :=
  varchar_ok body.keyLength.2 body.key_plain

section Claim

variable {db : Db} {key requestHash : String} {stored : Varchar 128}
  {row : IdempotencyKey}

theorem claim_taken (hfind : db.idempotencyKeys.find? (transferScope, key) = some row)
    (hval : stored.val = key) :
    db.idempotencyKeys.insert? ⟨transferScope, stored.val, requestHash,
      placeholderStatus, none, none⟩ = none := by
  rw [Table.insert?_eq_none_iff, hval]
  exact Option.isSome_iff_exists.mpr ⟨row, hfind⟩

theorem transferScope_varchar :
    varchar 64 transferScope = .ok ⟨transferScope, by decide⟩ :=
  varchar_ok (by decide) (by decide)

theorem claim_replays (hkey : varchar 128 key = .ok stored) (hval : stored.val = key)
    (hfind : db.idempotencyKeys.find? (transferScope, key) = some row)
    (hstatus : row.responseStatus = 202) (hhash : row.requestHash = requestHash) :
    Returns (claim transferScope key requestHash) db (some row) db := by
  unfold claim
  apply Returns.bind (Returns.orRaise transferScope_varchar db)
  apply Returns.bind (Returns.orRaise hkey db)
  apply Returns.bind (Returns.query _ db)
  rw [claim_taken hfind hval]
  apply Returns.bind (Returns.query _ db)
  rw [hfind]
  simp only [hhash, hstatus, ne_eq, not_true_eq_false, if_false]
  exact Returns.pure _ db

theorem claim_refuses (hkey : varchar 128 key = .ok stored) (hval : stored.val = key)
    (hfind : db.idempotencyKeys.find? (transferScope, key) = some row)
    (hhash : row.requestHash ≠ requestHash) :
    Raises (claim transferScope key requestHash) db (.app keyReused) := by
  unfold claim
  apply Returns.bind_raises (Returns.orRaise transferScope_varchar db)
  apply Returns.bind_raises (Returns.orRaise hkey db)
  apply Returns.bind_raises (Returns.query _ db)
  rw [claim_taken hfind hval]
  apply Returns.bind_raises (Returns.query _ db)
  rw [hfind]
  simp only [ne_eq, hhash, not_false_eq_true, if_true]
  exact Raises.throw _ db

end Claim

/-! ## Requests with an accepted key -/

section Request

variable {settings : ApiSettings} {body : CreateTransferRequest} {db : Db}
  {request : TransferRequest} {claimed : Option IdempotencyKey}

/-- The resolving part of the route, which only depends on the body. -/
theorem resolved_fields (h : resolved settings body = some request) :
    ∃ asset, getAsset body.asset = some asset ∧
      parseAmount (.text body.amount) asset.decimals = .ok request.amountUnits ∧
      request = {
        fromUserId := body.fromUserId
        toUserId := body.toUserId
        asset := asset.symbol
        amountUnits := request.amountUnits
        idempotencyKey := body.idempotencyKey
        network := resolveNetwork settings body.network } := by
  unfold resolved at h
  cases hasset : getAsset body.asset with
  | none => simp [hasset] at h
  | some asset =>
      cases hamount : parseAmount (.text body.amount) asset.decimals with
      | error e => simp [hasset, hamount] at h
      | ok amountUnits =>
          simp only [hasset, hamount, Option.some.injEq] at h
          subst h
          exact ⟨asset, rfl, hamount, rfl⟩

theorem resolveAsset_returns {asset : Asset} (h : getAsset body.asset = some asset)
    (db : Db) : Returns (resolveAsset body.asset) db asset db := by
  rw [resolveAsset, h]
  exact Returns.pure asset db

theorem resolveAmount_returns {asset : Asset} {units : Int}
    (h : parseAmount (.text body.amount) asset.decimals = .ok units) (db : Db) :
    Returns (resolveAmount body.amount asset) db units db := by
  rw [resolveAmount, h]
  exact Returns.pure units db

theorem postTransfer_replays {row : IdempotencyKey} {response : TransferResponse}
    (hresolved : resolved settings body = some request)
    (hclaim : Returns (claim transferScope body.idempotencyKey
      (fingerprint settings.sha256 (fingerprintFields request))) db (some row) db)
    (hbody : row.responseBody = some response) (scope : Scope) (newId : Uuid) :
    Returns (postTransfer settings scope newId body) db
      ⟨row.responseStatus, true, response⟩ db := by
  obtain ⟨asset, hasset, hamount, hrequest⟩ := resolved_fields hresolved
  unfold postTransfer
  apply Returns.bind (resolveAsset_returns hasset db)
  apply Returns.bind (resolveAmount_returns hamount db)
  rw [hrequest] at hclaim
  apply Returns.bind hclaim
  simp only [hbody]
  exact Returns.pure _ db

theorem postTransfer_refuses {e : Failure}
    (hresolved : resolved settings body = some request)
    (hclaim : Raises (claim transferScope body.idempotencyKey
      (fingerprint settings.sha256 (fingerprintFields request))) db e)
    (scope : Scope) (newId : Uuid) :
    Raises (postTransfer settings scope newId body) db e := by
  obtain ⟨asset, hasset, hamount, hrequest⟩ := resolved_fields hresolved
  unfold postTransfer
  apply Returns.bind_raises (resolveAsset_returns hasset db)
  apply Returns.bind_raises (resolveAmount_returns hamount db)
  rw [hrequest] at hclaim
  exact Raises.bind hclaim _

end Request

/-- Requests with the key of an accepted one: the stored body again if they
resolve to the same request, a refusal if not, and no change either way. -/
def AnswersOnce (settings : ApiSettings) (body : CreateTransferRequest)
    (response : TransferResponse) (db : Db) : Prop :=
  ∀ scope newId body' request, body'.idempotencyKey = body.idempotencyKey →
    resolved settings body' = some request →
    if resolved settings body = some request then
      commit (postTransfer settings scope newId body') db =
        (.ok ⟨202, true, response⟩, db)
    else ∃ error, error.kind.code = "IDEMPOTENCY_KEY_REUSED" ∧
      commit (postTransfer settings scope newId body') db = (.error (.app error), db)

theorem Stored.answersOnce {settings : ApiSettings} {body : CreateTransferRequest}
    {request : TransferRequest} {response : TransferResponse} {db : Db}
    (hresolved : resolved settings body = some request)
    (h : Stored settings request response db) :
    AnswersOnce settings body response db := by
  intro scope newId body' request' hkey hresolved'
  obtain ⟨row, hfind, hhash, hstatus, hbody⟩ := h
  rw [resolved_key hresolved, ← hkey] at hfind
  rw [hresolved]
  by_cases hsame : some request = some request'
  · rw [if_pos hsame]
    rw [Option.some.injEq] at hsame
    rw [hsame] at hhash
    have hclaim := claim_replays body'.key_varchar rfl hfind hstatus hhash
    have hreturns := postTransfer_replays hresolved' hclaim hbody scope newId
    rw [hstatus] at hreturns
    exact hreturns.commit
  · rw [if_neg hsame]
    have hother : row.requestHash ≠
        fingerprint settings.sha256 (fingerprintFields request') := by
      rw [hhash]
      intro heq
      have hkeys : request.idempotencyKey = request'.idempotencyKey := by
        rw [resolved_key hresolved, resolved_key hresolved', hkey]
      exact hsame (congrArg some (fingerprint_inj hkeys heq))
    have hclaim := claim_refuses body'.key_varchar rfl hfind hother
    have hraises := postTransfer_refuses hresolved' hclaim scope newId
    exact ⟨keyReused, rfl, hraises.commit⟩

/-- POST /transfers is idempotent in every run of the served system. -/
theorem post_transfer_is_idempotent (config : Config) (steps : List ServedStep) :
    ((∀ t ∈ (runServed config steps).transfers.rows, ∃! row,
        row ∈ (runServed config steps).idempotencyKeys.rows ∧
          row.scope = transferScope ∧ row.key = t.idempotencyKey) ∧
      (∀ row ∈ (runServed config steps).idempotencyKeys.rows,
        row.scope = transferScope →
        ∃! t, t ∈ (runServed config steps).transfers.rows ∧
          t.idempotencyKey = row.key) ∧
      ∀ row ∈ (runServed config steps).idempotencyKeys.rows,
        row.responseStatus ≠ placeholderStatus) ∧
    (∀ scope newId body response db',
      commit (postTransfer config.api scope newId body) (runServed config steps) =
        (.ok response, db') →
      response.statusCode = 202 ∧ ∀ later : List ServedStep,
        AnswersOnce config.api body response.body
          (runSteps (step config) db' (later.map Subtype.val))) ∧
    ∀ scope newId body e db',
      commit (postTransfer config.api scope newId body) (runServed config steps) =
        (.error e, db') →
      db' = runServed config steps := by
  have hsound : Sound (runServed config steps) := run_sound config _
  have hkeys : KeysMatch (runServed config steps) :=
    (runSteps_keys Sound.empty KeysMatch.empty config steps).1
  refine ⟨⟨hkeys.bijection.1, hkeys.bijection.2, ?_⟩, ?_, ?_⟩
  · intro row hrow
    rw [(hkeys.completed row hrow).2]
    decide
  · intro scope newId body response db' hcommit
    obtain ⟨request, hresolved, hposted⟩ :=
      (postTransfer_ensures _ config.api scope newId body).commit_ok hcommit
    obtain ⟨hstatus, hstored⟩ := hposted.stored hkeys
    refine ⟨hstatus, ?_⟩
    intro later
    have hlength : request.idempotencyKey.length ≤ 128 := by
      rw [resolved_key hresolved]
      exact body.keyLength.2
    have hkept := (runSteps_keys (hposted.sound hsound)
      (hposted.keysMatch hlength hkeys) config later).2
    exact (hstored.kept hkept).answersOnce hresolved
  · intro scope newId body e db' hcommit
    exact commit_error hcommit

end CryptoWallet.Wallet
