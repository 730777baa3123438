import CryptoWallet.DepositSpelling
import CryptoWallet.PromotedDeposits
import CryptoWallet.WalletApi

/-!
# POST /users/{user_id}/wallet

The route looks the wallet up, asks the blockchain service for the address of
the user, and attaches it.  The wallet service keeps one wallet for each user,
network and asset; the blockchain service issues one address to each owner,
whatever the network.  Whether the two agree depends on the networks one user
asks for.

A call to the blockchain service is repeated when it is not answered, so an
address may have been issued long before a wallet shows it.
-/

namespace CryptoWallet.WalletCreation

open Tx

structure Settings extends Wallet.ApiSettings where
  letterCase : LetterCase
  defaultAsset : String

/-- The databases of the two services. -/
structure World where
  wallet : Wallet.Db
  chain : Blockchain.Db

/-! ## The call to the blockchain service -/

inductive CallFate where
  | notReceived
  | responseLost
  | answered
  deriving DecidableEq

structure AddressCall where
  fate : CallFate
  generated : String

def upstreamUnavailable : Failure :=
  .app ⟨.upstreamUnavailable,
    "blockchain-service could not issue an address. No wallet was created; " ++
      "retry the request.", []⟩

/-- `RetryPolicy(attempts=3)`. -/
def addressAttempts : Nat := 3

/-- The attempts of `retry_async` one after the other. -/
def createAddress (ownerRef network : String) :
    List AddressCall → Blockchain.Db → Except Failure String × Blockchain.Db
  | [], chain => (.error upstreamUnavailable, chain)
  | call :: rest, chain =>
    match call.fate with
    | .notReceived => createAddress ownerRef network rest chain
    | .responseLost =>
      createAddress ownerRef network rest
        ((Blockchain.getOrCreateAddress ownerRef network call.generated).commit chain).2
    | .answered =>
      match (Blockchain.getOrCreateAddress ownerRef network call.generated).commit chain with
      | (.ok (address, _), chain') => (.ok address.address.val, chain')
      -- an unhandled exception is answered with 500, and the call is repeated
      | (.error _, chain') => createAddress ownerRef network rest chain'

/-! ## The route -/

structure CreateWalletRequest where
  userId : Int
  network : Option String
  asset : Option String

namespace CreateWalletRequest

def resolvedNetwork (request : CreateWalletRequest) (settings : Settings) : String :=
  Wallet.resolveNetwork settings.toApiSettings request.network

/-- `body.asset or ctx.settings.default_asset` -/
def assetName (request : CreateWalletRequest) (settings : Settings) : String :=
  match request.asset with
  | none => settings.defaultAsset
  | some name => if name = "" then settings.defaultAsset else name

end CreateWalletRequest

/-- What is drawn, and what becomes of the calls, while a request is served. -/
structure Draw where
  newId : Uuid
  calls : List AddressCall

structure WalletAnswer where
  statusCode : Nat
  wallet : Wallet.WalletRow
  deriving DecidableEq

def ownerRef (userId : Int) : String := "user:" ++ toString userId

def lookUp (userId : Int) (network : String) (asset : Asset) :
    Wallet.WalletTx (Option Wallet.WalletRow) := do
  let _ ← Wallet.getUser userId
  let bound ← orRaise (bindString network)
  Wallet.getWallet userId bound asset.symbol

/-- The second half of the route: the call, and the transaction after it. -/
def attachIssued (userId : Int) (network : String) (asset : Asset) (draw : Draw)
    (world : World) : Except Failure WalletAnswer × World :=
  match createAddress (ownerRef userId) network (draw.calls.take addressAttempts)
      world.chain with
  | (.error e, chain) => (.error e, ⟨world.wallet, chain⟩)
  | (.ok address, chain) =>
    match (Wallet.attachWallet draw.newId userId network asset.symbol address).commit
        world.wallet with
    | (.error e, wallet) => (.error e, ⟨wallet, chain⟩)
    | (.ok (row, created), wallet) =>
      (.ok ⟨if created then 201 else 200, row⟩, ⟨wallet, chain⟩)

def createWallet (settings : Settings) (request : CreateWalletRequest) (draw : Draw)
    (world : World) : Except Failure WalletAnswer × World :=
  let network := request.resolvedNetwork settings
  match (Wallet.resolveAsset (request.assetName settings)).commit world.wallet with
  | (.error e, _) => (.error e, world)
  | (.ok asset, _) =>
    match (lookUp request.userId network asset).commit world.wallet with
    | (.error e, _) => (.error e, world)
    | (.ok (some existing), _) => (.ok ⟨200, existing⟩, world)
    | (.ok none, _) => attachIssued request.userId network asset draw world

/-! ## Addresses of users -/

theorem ownerRef_inj {userId userId' : Int} (h : ownerRef userId = ownerRef userId') :
    userId = userId' := by
  have hlist := congrArg String.toList h
  rw [ownerRef, ownerRef, String.toList_append, String.toList_append] at hlist
  have hdigits := String.toList_inj.mp (List.append_cancel_left hlist)
  exact Int.repr_injective hdigits

/-- The values of a BIGSERIAL column. -/
def BigSerial (id : Int) : Prop := 1 ≤ id ∧ id < 2 ^ 63

theorem ownerRef_fits {userId : Int} (h : BigSerial userId) :
    (ownerRef userId).length ≤ 128 ∧ '\x00' ∉ (ownerRef userId).toList := by
  obtain ⟨n, rfl⟩ := Int.eq_ofNat_of_zero_le (by have := h.1; omega : 0 ≤ userId)
  have htext : toString (n : Int) = n.repr := rfl
  rw [ownerRef, htext]
  have hn : n < 2 ^ 63 := by
    have hlt := h.2
    omega
  constructor
  · have hdigits : n.repr.length ≤ 20 :=
      (Nat.length_repr_le_iff (by omega)).mpr (by omega)
    have hprefix : "user:".length = 5 := rfl
    rw [String.length_append]
    omega
  · rw [String.toList_append, List.mem_append, Nat.toList_repr]
    rintro (hfront | hdigit)
    · exact absurd hfront (by decide)
    · have hchar := Nat.isDigit_of_mem_toDigits (by omega) (by omega) hdigit
      exact absurd hchar (by decide)

section Addresses

variable {owner network : String} {chain : Blockchain.Db}

/-- One more address is in custody, for an owner who had none. -/
structure Issued (owner network : String) (chain : Blockchain.Db)
    (address : Blockchain.Address)
    (addresses : Table String Blockchain.Address Blockchain.Address.owner) : Prop where
  owner : address.owner = owner
  network : varchar 32 network = .ok address.network
  fresh : ∀ row ∈ chain.addresses.rows, row.address ≠ address.address
  insert : chain.addresses.insert? address = some addresses

/-- An address the keystore may draw. -/
structure Drawable (chain : Blockchain.Db) (generated : String) : Prop where
  length : generated.length ≤ 64
  nul : '\x00' ∉ generated.toList
  fresh : ∀ row ∈ chain.addresses.rows, row.address.val ≠ generated

theorem getOrCreateAddress_known {existing : Blockchain.Address}
    (hfind : chain.addresses.find? owner = some existing) (network generated : String) :
    (Blockchain.getOrCreateAddress owner network generated).commit chain =
      (.ok (existing, false), chain) := by
  have hreturns : Returns (Blockchain.getOrCreateAddress owner network generated) chain
      (existing, false) chain := by
    unfold Blockchain.getOrCreateAddress
    apply Returns.bind (Returns.query _ chain)
    rw [hfind]
    exact Returns.pure _ chain
  exact hreturns.commit

theorem getOrCreateAddress_rejected
    (howner : owner.length ≤ 128 ∧ '\x00' ∉ owner.toList)
    (hnone : chain.addresses.find? owner = none)
    {e : Failure} (hnetwork : varchar 32 network = .error e) (generated : String) :
    (Blockchain.getOrCreateAddress owner network generated).commit chain =
      (.error e, chain) := by
  have hraises : Raises (Blockchain.getOrCreateAddress owner network generated) chain e := by
    unfold Blockchain.getOrCreateAddress
    apply Returns.bind_raises (Returns.query _ chain)
    rw [hnone, varchar_ok howner.1 howner.2, hnetwork]
    exact Raises.throw e chain
  exact hraises.commit

theorem getOrCreateAddress_new
    (howner : owner.length ≤ 128 ∧ '\x00' ∉ owner.toList)
    (hnone : chain.addresses.find? owner = none)
    {stored : Varchar 32} (hnetwork : varchar 32 network = .ok stored)
    {generated : String} (hdraw : Drawable chain generated) :
    ∃ address addresses, Issued owner network chain address addresses ∧
      (Blockchain.getOrCreateAddress owner network generated).commit chain =
        (.ok (address, true), { chain with addresses }) := by
  let address : Blockchain.Address := {
    ownerRef := ⟨owner, howner⟩
    network := stored
    address := ⟨generated, hdraw.length, hdraw.nul⟩
    status := .active }
  have hfresh : ∀ row ∈ chain.addresses.rows, row.address ≠ address.address :=
    fun row hrow heq => hdraw.fresh row hrow (congrArg Subtype.val heq)
  obtain ⟨addresses, hinsert⟩ := chain.addresses.exists_insert? address hnone
  refine ⟨address, addresses, ⟨rfl, hnetwork, hfresh, hinsert⟩, ?_⟩
  have hunused : (chain.addresses.rows.any fun row =>
      decide (row.address = address.address)) = false := by
    simpa using hfresh
  have hreturns : Returns (Blockchain.getOrCreateAddress owner network generated) chain
      (address, true) { chain with addresses } := by
    unfold Blockchain.getOrCreateAddress
    apply Returns.bind (Returns.query _ chain)
    rw [hnone, varchar_ok howner.1 howner.2, hnetwork, varchar_ok hdraw.length hdraw.nul]
    apply Returns.bind (Returns.pure _ chain)
    apply Returns.bind (Returns.pure _ chain)
    apply Returns.bind (Returns.pure _ chain)
    apply Returns.bind (Returns.query _ chain)
    rw [hunused]
    apply Returns.bind (Returns.modifyDb _ chain)
    rw [hinsert]
    exact Returns.pure _ _
  exact hreturns.commit

/-! ## The attempts -/

/-- What the caller learns once the address exists. -/
def reply (calls : List AddressCall) (address : Blockchain.Address) :
    Except Failure String :=
  if calls.any (·.fate = .answered) then .ok address.address.val
  else .error upstreamUnavailable

theorem reply_ok_iff {calls : List AddressCall} {address : Blockchain.Address}
    {text : String} :
    reply calls address = .ok text ↔
      (∃ call ∈ calls, call.fate = .answered) ∧ address.address.val = text := by
  unfold reply
  split
  case isTrue h => simp_all
  case isFalse h => simp_all

theorem createAddress_known {existing : Blockchain.Address}
    (hfind : chain.addresses.find? owner = some existing) (network : String)
    (calls : List AddressCall) :
    createAddress owner network calls chain = (reply calls existing, chain) := by
  induction calls with
  | nil => rfl
  | cons call rest ih =>
      have hserved := getOrCreateAddress_known hfind network call.generated
      cases hfate : call.fate with
      | notReceived => simpa [createAddress, reply, hfate] using ih
      | responseLost => simpa [createAddress, reply, hfate, hserved] using ih
      | answered => simp [createAddress, reply, hfate, hserved]

theorem createAddress_rejected
    (howner : owner.length ≤ 128 ∧ '\x00' ∉ owner.toList)
    (hnone : chain.addresses.find? owner = none)
    {e : Failure} (hnetwork : varchar 32 network = .error e) (calls : List AddressCall) :
    createAddress owner network calls chain = (.error upstreamUnavailable, chain) := by
  induction calls with
  | nil => rfl
  | cons call rest ih =>
      have hserved := getOrCreateAddress_rejected howner hnone hnetwork call.generated
      cases hfate : call.fate with
      | notReceived => simpa [createAddress, hfate] using ih
      | responseLost => simpa [createAddress, hfate, hserved] using ih
      | answered => simpa [createAddress, hfate, hserved] using ih

/-- The first call which is received issues the address, the others find it. -/
theorem createAddress_new
    (howner : owner.length ≤ 128 ∧ '\x00' ∉ owner.toList)
    (hnone : chain.addresses.find? owner = none)
    {stored : Varchar 32} (hnetwork : varchar 32 network = .ok stored)
    {calls : List AddressCall} (hdraws : ∀ call ∈ calls, Drawable chain call.generated) :
    ((∀ call ∈ calls, call.fate = .notReceived) ∧
      createAddress owner network calls chain = (.error upstreamUnavailable, chain)) ∨
    ∃ address addresses, Issued owner network chain address addresses ∧
      createAddress owner network calls chain =
        (reply calls address, { chain with addresses }) := by
  induction calls with
  | nil => exact Or.inl ⟨by simp, rfl⟩
  | cons call rest ih =>
      have hrest := ih fun other hother => hdraws other (List.mem_cons_of_mem call hother)
      obtain ⟨address, addresses, hissued, hserved⟩ := getOrCreateAddress_new howner hnone
        hnetwork (hdraws call List.mem_cons_self)
      cases hfate : call.fate with
      | notReceived =>
          simpa [createAddress, reply, hfate] using hrest
      | responseLost =>
          right
          refine ⟨address, addresses, hissued, ?_⟩
          have hfind : addresses.find? owner = some address := by
            rw [Table.find?_insert? hissued.insert, if_pos hissued.owner.symm]
          have hknown : createAddress owner network rest { chain with addresses } = _ :=
            createAddress_known hfind network rest
          simpa [createAddress, reply, hfate, hserved] using hknown
      | answered =>
          right
          refine ⟨address, addresses, hissued, ?_⟩
          simp [createAddress, reply, hfate, hserved]

end Addresses

end CryptoWallet.WalletCreation
