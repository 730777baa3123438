import CryptoWallet.WalletCreation

/-!
# Sequences of wallet requests

A user whose requests all name one network gets one address and one wallet, and
every repetition finds them.  The first request for another network meets the
address of the first one: it is refused by the unique address of the wallets,
or, when no wallet shows the address yet, it attaches an address which was
issued for the other network.  So a sequence of requests is served exactly when
no user asks for a second network.
-/

namespace CryptoWallet.WalletCreation

open Tx

inductive Step where
  | createUser (newId : Int) (name email : String)
  | createWallet (request : CreateWalletRequest) (draw : Draw)

def perform (settings : Settings) (world : World) : Step → World
  | .createUser newId name email =>
    { world with
      wallet := ((Wallet.createUser settings.letterCase newId name email).commit
        world.wallet).2 }
  | .createWallet request draw => (createWallet settings request draw world).2

/-- `P` holds of each step in the world which the step meets. -/
def Along (settings : Settings) (P : World → Step → Prop) : World → List Step → Prop
  | _, [] => True
  | world, step :: rest =>
    P world step ∧ Along settings P (perform settings world step) rest

abbrev WalletKey := Int × String × String

/-- The user, the network and the asset which a request is about. -/
def CreateWalletRequest.key (request : CreateWalletRequest) (settings : Settings) :
    Option WalletKey :=
  (getAsset (request.assetName settings)).map fun asset =>
    (request.userId, request.resolvedNetwork settings, asset.symbol)

/-- The request is answered with the wallet it asks for, and the address of the
wallet was issued to the user for that network. -/
def Served (settings : Settings) (world : World) : Step → Prop
  | .createUser _ _ _ => True
  | .createWallet request draw =>
    ∃ key answer, request.key settings = some key ∧
      (createWallet settings request draw world).1 = .ok answer ∧
      (perform settings world (.createWallet request draw)).wallet.wallets.find? key =
        some answer.wallet ∧
      ∃ address,
        (perform settings world (.createWallet request draw)).chain.addresses.find?
          (ownerRef request.userId) = some address ∧
        address.address.val = answer.wallet.address ∧
        address.network.val = answer.wallet.network

/-- The wallets of the answered requests, in order. -/
def answers (settings : Settings) : World → List Step → List (WalletKey × Wallet.WalletRow)
  | _, [] => []
  | world, step :: rest =>
    let later := answers settings (perform settings world step) rest
    match step with
    | .createUser _ _ _ => later
    | .createWallet request draw =>
      match request.key settings, (createWallet settings request draw world).1 with
      | some key, .ok answer => (key, answer.wallet) :: later
      | _, _ => later

/-- A repeated request returns the same wallet. -/
def Repeatable (returned : List (WalletKey × Wallet.WalletRow)) : Prop :=
  returned.Pairwise fun earlier later => earlier.1 = later.1 → earlier.2 = later.2

/-- A request for an existing user and a supported asset; what is drawn is fresh. -/
def Admitted (settings : Settings) (world : World) : Step → Prop
  | .createUser newId _ _ => BigSerial newId
  | .createWallet request draw =>
    (∃ user, world.wallet.users.find? request.userId = some user) ∧
      (∃ asset, getAsset (request.assetName settings) = some asset) ∧
      (∀ row ∈ world.wallet.wallets.rows, row.id ≠ draw.newId) ∧
      ∀ call ∈ draw.calls, Drawable world.chain call.generated

/-- The name of the network fits its columns, the user has no address on another
network, and one of the attempts is answered unless the wallet is there. -/
def OnOneNetwork (settings : Settings) (world : World) : Step → Prop
  | .createUser _ _ _ => True
  | .createWallet request draw =>
    let network := request.resolvedNetwork settings
    network.length ≤ 32 ∧ '\x00' ∉ network.toList ∧
      (∀ address, world.chain.addresses.find? (ownerRef request.userId) = some address →
        address.network.val = network) ∧
      ((∃ call ∈ draw.calls.take addressAttempts, call.fate = .answered) ∨
        ∃ key row, request.key settings = some key ∧
          world.wallet.wallets.find? key = some row)

/-! ## The transactions of the wallet service -/

section Wallets

variable {db : Wallet.Db} {userId : Int} {network : String} {asset : Asset}

theorem lookUp_returns (huser : ∃ user, db.users.find? userId = some user)
    (hnul : '\x00' ∉ network.toList) :
    Returns (lookUp userId network asset) db
      (db.wallets.find? (userId, network, asset.symbol)) db := by
  obtain ⟨user, huser⟩ := huser
  have hbound : bindString network = .ok network := if_neg hnul
  unfold lookUp
  apply Returns.bind (Wallet.getUser_returns huser)
  apply Returns.bind (Returns.orRaise hbound db)
  exact Returns.query _ db

theorem lookUp_raises (huser : ∃ user, db.users.find? userId = some user)
    (hnul : '\x00' ∈ network.toList) :
    Raises (lookUp userId network asset) db .dataError := by
  obtain ⟨user, huser⟩ := huser
  have hbound : bindString network = .error .dataError := if_pos hnul
  unfold lookUp
  apply Returns.bind_raises (Wallet.getUser_returns huser)
  rw [hbound]
  exact Raises.bind (Raises.throw _ db) _

theorem insertWallet_returns {row : Wallet.WalletRow}
    {wallets : Table WalletKey Wallet.WalletRow Wallet.WalletRow.key}
    (h : Wallet.WalletInserted db row wallets) :
    Returns (Wallet.insertWallet row) db true { db with wallets } := by
  obtain ⟨user, huser⟩ := h.owner
  have hid : (db.wallets.rows.any fun other => decide (other.id = row.id)) = false := by
    simpa using h.freshId
  have haddress : (db.wallets.rows.any fun other => decide (other.address = row.address)) =
      false := by
    simpa using h.freshAddress
  unfold Wallet.insertWallet
  apply Returns.bind (Returns.query _ db)
  rw [h.insert]
  apply Returns.bind (Returns.query _ db)
  rw [hid]
  apply Returns.bind (Returns.query _ db)
  rw [haddress]
  apply Returns.bind (Returns.query _ db)
  rw [huser]
  apply Returns.bind (Returns.modifyDb _ db)
  exact Returns.pure true _

/-- A wallet is attached when its key, its id and its address are new. -/
theorem attachWallet_new {newId : Uuid} {address : Varchar 64}
    {wallets : Table WalletKey Wallet.WalletRow Wallet.WalletRow.key}
    (hnetwork : network.length ≤ 32 ∧ '\x00' ∉ network.toList) (hasset : asset = usdt)
    (hinserted : Wallet.WalletInserted db
      ⟨newId, userId, network, asset.symbol, address.val, .active⟩ wallets) :
    Ensures (Wallet.attachWallet newId userId network asset.symbol address.val) db
      (fun result db' =>
        result = (⟨newId, userId, network, asset.symbol, address.val, .active⟩, true) ∧
          db'.users = db.users ∧ db'.wallets = wallets)
      (fun _ => False) := by
  have hsymbol : asset.symbol.length ≤ 16 ∧ '\x00' ∉ asset.symbol.toList := by
    rw [hasset]
    exact ⟨by decide, by decide⟩
  unfold Wallet.attachWallet
  rw [varchar_ok hnetwork.1 hnetwork.2, varchar_ok hsymbol.1 hsymbol.2,
    varchar_ok address.property.1 address.property.2]
  apply Ensures.orRaise_bind ?_ (fun _ he => by cases he)
  rintro _ ⟨⟩
  apply Ensures.orRaise_bind ?_ (fun _ he => by cases he)
  rintro _ ⟨⟩
  apply Ensures.orRaise_bind ?_ (fun _ he => by cases he)
  rintro _ ⟨⟩
  apply (insertWallet_returns hinserted).ensures_bind
  have hsucceeds : Ensures (Wallet.ensureBalance userId asset.symbol)
      ({ db with wallets } : Wallet.Db) (fun _ _ => True) fun _ => False :=
    @ensureBalance_succeeds { db with wallets } userId ⟨asset.symbol, hsymbol⟩ hinserted.owner
  have hbalance := hsucceeds.and
    (Wallet.ensureBalance_ensures { db with wallets } userId asset.symbol)
  apply Ensures.bind (hbalance.mono (fun _ _ h => h.2.1) (fun _ h => h.1))
  intro _ db' hmoved
  have hwallets : db'.wallets = wallets := hmoved.frame.wallets
  have hfind : db'.wallets.find? (userId, network, asset.symbol) =
      some ⟨newId, userId, network, asset.symbol, address.val, .active⟩ := by
    rw [hwallets, Table.find?_insert? hinserted.insert]
    exact if_pos rfl
  apply Ensures.query_bind
  rw [hfind]
  exact Ensures.pure ⟨rfl, hmoved.frame.users, hwallets⟩

end Wallets

/-! ## The two services agree -/

/-- Each wallet shows the address of its user, on the network it was issued for. -/
structure Matched (world : World) : Prop where
  users : ∀ user ∈ world.wallet.users.rows, BigSerial user.id
  issued : ∀ row ∈ world.wallet.wallets.rows, ∃ address,
    world.chain.addresses.find? (ownerRef row.userId) = some address ∧
      address.address.val = row.address ∧ address.network.val = row.network
  supported : ∀ row ∈ world.wallet.wallets.rows, row.asset = usdt.symbol
  distinct : ∀ address ∈ world.chain.addresses.rows, ∀ other ∈ world.chain.addresses.rows,
    address.address = other.address → address = other

namespace Matched

variable {world : World}

theorem owner_fits (h : Matched world) {userId : Int}
    (huser : ∃ user, world.wallet.users.find? userId = some user) :
    (ownerRef userId).length ≤ 128 ∧ '\x00' ∉ (ownerRef userId).toList := by
  obtain ⟨user, huser⟩ := huser
  have hserial := h.users user (Table.mem_of_find? huser)
  rw [Table.key_of_find? huser] at hserial
  exact ownerRef_fits hserial

/-- The wallet of a key shows the address of the user. -/
theorem address_of_wallet (h : Matched world) {key : WalletKey} {row : Wallet.WalletRow}
    (hrow : world.wallet.wallets.find? key = some row) :
    ∃ address, world.chain.addresses.find? (ownerRef key.1) = some address ∧
      address.address.val = row.address ∧ address.network.val = row.network ∧
      row.network = key.2.1 := by
  have hkey := Table.key_of_find? hrow
  obtain ⟨address, hfind, haddress, hnetwork⟩ := h.issued row (Table.mem_of_find? hrow)
  have huser : row.userId = key.1 := congrArg Prod.fst hkey
  rw [huser] at hfind
  exact ⟨address, hfind, haddress, hnetwork, congrArg (·.2.1) hkey⟩

theorem issue (h : Matched world) {owner network : String} {address : Blockchain.Address}
    {addresses : Table String Blockchain.Address Blockchain.Address.owner}
    (hissued : Issued owner network world.chain address addresses) :
    Matched ⟨world.wallet, { world.chain with addresses }⟩ := by
  have hfree := Table.insert?_free hissued.insert
  refine ⟨h.users, ?_, h.supported, ?_⟩
  · intro row hrow
    obtain ⟨old, hfind, hshown⟩ := h.issued row hrow
    refine ⟨old, ?_, hshown⟩
    have hne : ownerRef row.userId ≠ address.owner := by
      intro heq
      rw [heq, hfree] at hfind
      cases hfind
    exact (Table.find?_insert? hissued.insert _).trans ((if_neg hne).trans hfind)
  · intro first hfirst second hsecond hsame
    have hfirst := (Table.mem_insert? hissued.insert).mp hfirst
    have hsecond := (Table.mem_insert? hissued.insert).mp hsecond
    rcases hfirst with hfirst | hfirst
    · rcases hsecond with hsecond | hsecond
      · exact h.distinct first hfirst second hsecond hsame
      · rw [hsecond] at hsame
        exact (hissued.fresh first hfirst hsame).elim
    · rcases hsecond with hsecond | hsecond
      · rw [hfirst] at hsame
        exact (hissued.fresh second hsecond hsame.symm).elim
      · rw [hfirst, hsecond]

/-- No other wallet shows the address of a user who has no wallet of this key. -/
theorem address_unshown (h : Matched world) {userId : Int} {network : String}
    {address : Blockchain.Address}
    (hfind : world.chain.addresses.find? (ownerRef userId) = some address)
    (hnetwork : address.network.val = network)
    (hnone : world.wallet.wallets.find? (userId, network, usdt.symbol) = none) :
    ∀ row ∈ world.wallet.wallets.rows, row.address ≠ address.address.val := by
  intro row hrow hsame
  obtain ⟨other, hother, hshown, hothers⟩ := h.issued row hrow
  have hequal : other = address := h.distinct other (Table.mem_of_find? hother) address
    (Table.mem_of_find? hfind) (Subtype.ext (hshown.trans hsame))
  have howner : ownerRef row.userId = ownerRef userId := by
    rw [← Table.key_of_find? hother, ← Table.key_of_find? hfind, hequal]
  have hkey : row.key = (userId, network, usdt.symbol) := by
    unfold Wallet.WalletRow.key
    rw [ownerRef_inj howner, h.supported row hrow, ← hothers, hequal, hnetwork]
  have hpresent := world.wallet.wallets.find?_of_mem hrow
  rw [hkey, hnone] at hpresent
  cases hpresent

theorem attach (h : Matched world) {row : Wallet.WalletRow} {db' : Wallet.Db}
    (hasset : row.asset = usdt.symbol) {address : Blockchain.Address}
    (hfind : world.chain.addresses.find? (ownerRef row.userId) = some address)
    (haddress : address.address.val = row.address)
    (hnetwork : address.network.val = row.network)
    (husers : db'.users = world.wallet.users)
    (hinsert : world.wallet.wallets.insert? row = some db'.wallets) :
    Matched ⟨db', world.chain⟩ := by
  have hmem : ∀ other ∈ db'.wallets.rows, other ∈ world.wallet.wallets.rows ∨ other = row :=
    fun other hother => (Table.mem_insert? hinsert).mp hother
  refine ⟨?_, ?_, ?_, h.distinct⟩
  · rw [show World.wallet ⟨db', world.chain⟩ = db' from rfl, husers]
    exact h.users
  · intro other hother
    rcases hmem other hother with hold | hnew
    · exact h.issued other hold
    · rw [hnew]
      exact ⟨address, hfind, haddress, hnetwork⟩
  · intro other hother
    rcases hmem other hother with hold | hnew
    · exact h.supported other hold
    · rw [hnew, hasset]

end Matched

/-! ## One request -/

section Request

variable {settings : Settings} {world : World} {request : CreateWalletRequest} {draw : Draw}

theorem createWallet_nul (hadmitted : Admitted settings world (.createWallet request draw))
    (hnul : '\x00' ∈ (request.resolvedNetwork settings).toList) :
    createWallet settings request draw world = (.error .dataError, world) := by
  obtain ⟨huser, ⟨asset, hasset⟩, _, _⟩ := hadmitted
  have hresolved : (Wallet.resolveAsset (request.assetName settings)).commit world.wallet =
      (.ok asset, world.wallet) := by
    unfold Wallet.resolveAsset
    rw [hasset]
    exact (Returns.pure asset world.wallet).commit
  have hlookUp : (lookUp request.userId (request.resolvedNetwork settings) asset).commit
      world.wallet = (.error .dataError, world.wallet) := (lookUp_raises huser hnul).commit
  simp only [createWallet, hresolved, hlookUp]

/-- The route once the asset is resolved and the wallet is looked up. -/
theorem createWallet_eq (hadmitted : Admitted settings world (.createWallet request draw))
    (hnul : '\x00' ∉ (request.resolvedNetwork settings).toList) :
    request.key settings =
        some (request.userId, request.resolvedNetwork settings, usdt.symbol) ∧
      createWallet settings request draw world =
        match world.wallet.wallets.find?
          (request.userId, request.resolvedNetwork settings, usdt.symbol) with
        | some existing => (.ok ⟨200, existing⟩, world)
        | none => attachIssued request.userId (request.resolvedNetwork settings) usdt draw
            world := by
  obtain ⟨huser, ⟨asset, hasset⟩, _, _⟩ := hadmitted
  rw [getAsset_eq_usdt hasset] at hasset
  constructor
  · simp [CreateWalletRequest.key, hasset]
  have hresolved : (Wallet.resolveAsset (request.assetName settings)).commit world.wallet =
      (.ok usdt, world.wallet) := by
    unfold Wallet.resolveAsset
    rw [hasset]
    exact (Returns.pure usdt world.wallet).commit
  have hlookUp : (lookUp request.userId (request.resolvedNetwork settings) usdt).commit
      world.wallet = (.ok (world.wallet.wallets.find?
        (request.userId, request.resolvedNetwork settings, usdt.symbol)), world.wallet) :=
    (lookUp_returns huser hnul).commit
  simp only [createWallet, hresolved, hlookUp]
  cases world.wallet.wallets.find?
    (request.userId, request.resolvedNetwork settings, usdt.symbol) with
  | none => rfl
  | some existing => rfl

end Request

section Issue

variable {world : World} {userId : Int} {network : String} {calls : List AddressCall}

theorem createAddress_answers (h : Matched world)
    (huser : ∃ user, world.wallet.users.find? userId = some user)
    (hnetwork : network.length ≤ 32 ∧ '\x00' ∉ network.toList)
    (hone : ∀ address, world.chain.addresses.find? (ownerRef userId) = some address →
      address.network.val = network)
    (hdraws : ∀ call ∈ calls, Drawable world.chain call.generated)
    (hanswered : ∃ call ∈ calls, call.fate = .answered) :
    ∃ (address : Blockchain.Address) (chain : Blockchain.Db),
      createAddress (ownerRef userId) network calls world.chain =
          (.ok address.address.val, chain) ∧
        Matched ⟨world.wallet, chain⟩ ∧
        chain.addresses.find? (ownerRef userId) = some address ∧
        address.network.val = network := by
  have hreply : ∀ address, reply calls address = .ok address.address.val :=
    fun address => reply_ok_iff.mpr ⟨hanswered, rfl⟩
  cases hfind : world.chain.addresses.find? (ownerRef userId) with
  | some existing =>
      refine ⟨existing, world.chain, ?_, h, hfind, hone existing hfind⟩
      rw [createAddress_known hfind, hreply]
  | none =>
      rcases createAddress_new (h.owner_fits huser) hfind
        (varchar_ok hnetwork.1 hnetwork.2) hdraws with
        ⟨hlost, _⟩ | ⟨address, addresses, hissued, hresult⟩
      · obtain ⟨call, hcall, hfate⟩ := hanswered
        rw [hlost call hcall] at hfate
        cases hfate
      · refine ⟨address, { world.chain with addresses }, ?_, h.issue hissued, ?_, ?_⟩
        · rw [hresult, hreply]
        · exact (Table.find?_insert? hissued.insert _).trans (if_pos hissued.owner.symm)
        · exact varchar_eq hnetwork.1 hissued.network

theorem createAddress_ok (h : Matched world)
    (huser : ∃ user, world.wallet.users.find? userId = some user)
    (hdraws : ∀ call ∈ calls, Drawable world.chain call.generated)
    {text : String} {chain : Blockchain.Db}
    (hresult : createAddress (ownerRef userId) network calls world.chain = (.ok text, chain)) :
    (∃ call ∈ calls, call.fate = .answered) ∧
      ∀ address, world.chain.addresses.find? (ownerRef userId) = some address →
        chain.addresses.find? (ownerRef userId) = some address := by
  cases hfind : world.chain.addresses.find? (ownerRef userId) with
  | some existing =>
      rw [createAddress_known hfind] at hresult
      obtain ⟨hreply, rfl⟩ := Prod.mk.injEq _ _ _ _ ▸ hresult
      exact ⟨(reply_ok_iff.mp hreply).1, fun address haddress => hfind.trans haddress⟩
  | none =>
      refine ⟨?_, by simp⟩
      cases hnetwork : varchar 32 network with
      | error e =>
          rw [createAddress_rejected (h.owner_fits huser) hfind hnetwork] at hresult
          cases hresult
      | ok stored =>
          rcases createAddress_new (h.owner_fits huser) hfind hnetwork hdraws with
            ⟨_, hnone⟩ | ⟨address, addresses, _, hsome⟩
          · rw [hnone] at hresult
            cases hresult
          · rw [hsome] at hresult
            exact (reply_ok_iff.mp (congrArg Prod.fst hresult)).1

/-- The second half of the route attaches the address of the user. -/
theorem attachIssued_served {draw : Draw} (h : Matched world)
    (huser : ∃ user, world.wallet.users.find? userId = some user)
    (hnetwork : network.length ≤ 32 ∧ '\x00' ∉ network.toList)
    (hone : ∀ address, world.chain.addresses.find? (ownerRef userId) = some address →
      address.network.val = network)
    (hid : ∀ row ∈ world.wallet.wallets.rows, row.id ≠ draw.newId)
    (hdraws : ∀ call ∈ draw.calls, Drawable world.chain call.generated)
    (hanswered : ∃ call ∈ draw.calls.take addressAttempts, call.fate = .answered)
    (hnone : world.wallet.wallets.find? (userId, network, usdt.symbol) = none) :
    ∃ (row : Wallet.WalletRow) (address : Blockchain.Address) (world' : World),
      attachIssued userId network usdt draw world = (.ok ⟨201, row⟩, world') ∧
        Matched world' ∧
        world'.wallet.wallets.find? (userId, network, usdt.symbol) = some row ∧
        world'.chain.addresses.find? (ownerRef userId) = some address ∧
        address.address.val = row.address ∧ address.network.val = row.network := by
  obtain ⟨address, chain, hissue, hmatched, hfind, hplace⟩ := createAddress_answers h huser
    hnetwork hone (fun call hcall => hdraws call (List.mem_of_mem_take hcall)) hanswered
  let row : Wallet.WalletRow :=
    ⟨draw.newId, userId, network, usdt.symbol, address.address.val, .active⟩
  obtain ⟨wallets, hinsert⟩ := world.wallet.wallets.exists_insert? row hnone
  have hinserted : Wallet.WalletInserted world.wallet row wallets :=
    ⟨hinsert, hid, hmatched.address_unshown hfind hplace hnone, huser⟩
  obtain ⟨result, db', hcommit, hresult, husers, hwallets⟩ :=
    (attachWallet_new hnetwork rfl hinserted).commit_returns
  refine ⟨row, address, ⟨db', chain⟩, ?_, ?_, ?_, hfind, rfl, hplace⟩
  · simp only [attachIssued, hissue, hcommit, hresult, if_true]
    rfl
  · rw [← hwallets] at hinsert
    exact hmatched.attach rfl hfind rfl hplace husers hinsert
  · rw [show World.wallet ⟨db', chain⟩ = db' from rfl, hwallets,
      Table.find?_insert? hinsert]
    exact if_pos rfl

end Issue

/-! ## One step -/

section Step

variable {settings : Settings} {world : World}

theorem request_served {request : CreateWalletRequest} {draw : Draw} (h : Matched world)
    (hadmitted : Admitted settings world (.createWallet request draw))
    (hone : OnOneNetwork settings world (.createWallet request draw)) :
    Served settings world (.createWallet request draw) ∧
      Matched (perform settings world (.createWallet request draw)) := by
  obtain ⟨hlength, hnul, haddress, hreached⟩ := hone
  obtain ⟨hkey, hroute⟩ := createWallet_eq hadmitted hnul
  obtain ⟨huser, _, hid, hdraws⟩ := hadmitted
  cases hfind : world.wallet.wallets.find?
      (request.userId, request.resolvedNetwork settings, usdt.symbol) with
  | some existing =>
      rw [hfind] at hroute
      obtain ⟨address, howned, hshown, hplace, _⟩ := h.address_of_wallet hfind
      have hworld : perform settings world (.createWallet request draw) = world :=
        congrArg Prod.snd hroute
      refine ⟨⟨_, ⟨200, existing⟩, hkey, congrArg Prod.fst hroute, ?_, address, ?_,
        hshown, hplace⟩, ?_⟩
      · rw [hworld]
        exact hfind
      · rw [hworld]
        exact howned
      · rw [hworld]
        exact h
  | none =>
      rw [hfind] at hroute
      have hanswered : ∃ call ∈ draw.calls.take addressAttempts, call.fate = .answered := by
        rcases hreached with hanswered | ⟨key, row, hkey', hrow⟩
        · exact hanswered
        · rw [hkey, Option.some.injEq] at hkey'
          rw [← hkey', hfind] at hrow
          cases hrow
      obtain ⟨row, address, world', hresult, hmatched, hrow, howned, hshown, hplace⟩ :=
        attachIssued_served h huser ⟨hlength, hnul⟩ haddress hid hdraws hanswered hfind
      have hroute := hroute.trans hresult
      have hworld : perform settings world (.createWallet request draw) = world' :=
        congrArg Prod.snd hroute
      rw [Served, hworld]
      exact ⟨⟨_, ⟨201, row⟩, hkey, congrArg Prod.fst hroute, hrow, address, howned, hshown,
        hplace⟩, hmatched⟩

/-- A wallet which shows an address of its network was asked for on that network. -/
theorem onOneNetwork_of_served {request : CreateWalletRequest} {draw : Draw}
    (h : Matched world) (hadmitted : Admitted settings world (.createWallet request draw))
    (hserved : Served settings world (.createWallet request draw)) :
    OnOneNetwork settings world (.createWallet request draw) := by
  obtain ⟨key, answer, hkey, hanswer, hrow, address, howned, _, hplace⟩ := hserved
  by_cases hnul : '\x00' ∈ (request.resolvedNetwork settings).toList
  · rw [createWallet_nul hadmitted hnul] at hanswer
    cases hanswer
  obtain ⟨hkey', hroute⟩ := createWallet_eq hadmitted hnul
  rw [hkey', Option.some.injEq] at hkey
  have hnetwork : address.network.val = request.resolvedNetwork settings := by
    rw [hplace]
    have hrowKey := Table.key_of_find? hrow
    rw [← hkey] at hrowKey
    exact congrArg (·.2.1) hrowKey
  have hlength : (request.resolvedNetwork settings).length ≤ 32 := by
    rw [← hnetwork]
    exact address.network.property.1
  have hperform : perform settings world (.createWallet request draw) =
      (createWallet settings request draw world).2 := rfl
  rw [hperform] at howned
  obtain ⟨huser, _, _, hdraws⟩ := hadmitted
  cases hfind : world.wallet.wallets.find?
      (request.userId, request.resolvedNetwork settings, usdt.symbol) with
  | some existing =>
      rw [hroute, hfind] at howned
      refine ⟨hlength, hnul, ?_, Or.inr ⟨_, existing, hkey', hfind⟩⟩
      intro other hother
      rw [howned, Option.some.injEq] at hother
      rw [← hother, hnetwork]
  | none =>
      rw [hroute, hfind] at howned hanswer
      simp only [attachIssued] at howned hanswer
      cases hissue : createAddress (ownerRef request.userId)
          (request.resolvedNetwork settings) (draw.calls.take addressAttempts) world.chain with
      | mk replied chain =>
          cases replied with
          | error e =>
              rw [hissue] at hanswer
              cases hanswer
          | ok text =>
              obtain ⟨hanswered, hkept⟩ := createAddress_ok h huser
                (fun call hcall => hdraws call (List.mem_of_mem_take hcall)) hissue
              refine ⟨hlength, hnul, ?_, Or.inl hanswered⟩
              intro other hother
              have hchain : chain.addresses.find? (ownerRef request.userId) =
                  some address := by
                rw [hissue] at howned
                simp only at howned
                split at howned <;> exact howned
              rw [hkept other hother, Option.some.injEq] at hchain
              rw [hchain, hnetwork]

/-- A new user has no wallet yet. -/
theorem createUser_adds (db : Wallet.Db) (newId : Int) (name email : String) :
    Ensures (Wallet.createUser settings.letterCase newId name email) db
      (fun _ db' => db'.wallets = db.wallets ∧
        ∀ user ∈ db'.users.rows, user ∈ db.users.rows ∨ user.id = newId)
      (fun _ => True) := by
  apply (Wallet.createUser_ensures db settings.letterCase newId name email).mono ?_
    (fun _ _ => trivial)
  intro user db' hcreated
  obtain ⟨hid, users, hinsert, hdb⟩ := hcreated
  rw [hdb]
  refine ⟨rfl, ?_⟩
  intro other hother
  rcases (Table.mem_insert? hinsert).mp hother with hold | hnew
  · exact Or.inl hold
  · exact Or.inr (by rw [hnew, hid])

theorem createUser_matched (h : Matched world) {newId : Int} (hserial : BigSerial newId)
    (name email : String) :
    Matched (perform settings world (.createUser newId name email)) := by
  have hboth : (perform settings world (.createUser newId name email)).wallet.wallets =
      world.wallet.wallets ∧
      ∀ user ∈ (perform settings world (.createUser newId name email)).wallet.users.rows,
        user ∈ world.wallet.users.rows ∨ user.id = newId := by
    apply commit_preserves (I := fun db : Wallet.Db => db.wallets = world.wallet.wallets ∧
      ∀ user ∈ db.users.rows, user ∈ world.wallet.users.rows ∨ user.id = newId)
    · exact ⟨rfl, fun user huser => Or.inl huser⟩
    · exact createUser_adds world.wallet newId name email
  obtain ⟨hwallets, husers⟩ := hboth
  refine ⟨?_, ?_, ?_, h.distinct⟩
  · intro user huser
    rcases husers user huser with hold | hnew
    · exact h.users user hold
    · rw [hnew]
      exact hserial
  · rw [hwallets]
    exact h.issued
  · rw [hwallets]
    exact h.supported

/-- A request is served exactly when it stays on the network of the user. -/
theorem served_iff (h : Matched world) {step : Step} (hadmitted : Admitted settings world step) :
    Served settings world step ↔ OnOneNetwork settings world step := by
  cases step with
  | createUser newId name email => exact Iff.rfl
  | createWallet request draw =>
      exact ⟨onOneNetwork_of_served h hadmitted, fun hone =>
        (request_served h hadmitted hone).1⟩

theorem perform_matched (h : Matched world) {step : Step}
    (hadmitted : Admitted settings world step) (hone : OnOneNetwork settings world step) :
    Matched (perform settings world step) := by
  cases step with
  | createUser newId name email => exact createUser_matched h hadmitted name email
  | createWallet request draw => exact (request_served h hadmitted hone).2

end Step

/-! ## Every sequence -/

section Runs

variable {settings : Settings}

theorem along_iff {world : World} (h : Matched world) {steps : List Step}
    (hadmitted : Along settings (Admitted settings) world steps) :
    Along settings (Served settings) world steps ↔
      Along settings (OnOneNetwork settings) world steps := by
  induction steps generalizing world with
  | nil => exact Iff.rfl
  | cons step rest ih =>
      obtain ⟨hstep, hrest⟩ := hadmitted
      constructor
      · intro hserved
        have hone := (served_iff h hstep).mp hserved.1
        exact ⟨hone, (ih (perform_matched h hstep hone) hrest).mp hserved.2⟩
      · intro hone
        exact ⟨(served_iff h hstep).mpr hone.1,
          (ih (perform_matched h hstep hone.1) hrest).mpr hone.2⟩

theorem lookUp_ensures (db : Wallet.Db) (userId : Int) (network : String) (asset : Asset) :
    Ensures (lookUp userId network asset) db
      (fun found _ => found = db.wallets.find? (userId, network, asset.symbol))
      (fun _ => True) := by
  unfold lookUp
  apply Ensures.bind ((Wallet.getUser_ensures db userId).mono (fun _ _ h => h.1)
    (fun _ _ => trivial))
  intro _ db' hsame
  rw [hsame]
  apply Ensures.orRaise_bind ?_ (fun _ _ => trivial)
  intro bound hbound
  unfold bindString at hbound
  split at hbound
  · cases hbound
  · rw [← Except.ok.inj hbound]
    exact Ensures.query rfl

/-- The route answers with the wallet it finds, or attaches one. -/
theorem createWallet_cases (settings : Settings) (request : CreateWalletRequest)
    (draw : Draw) (world : World) :
    let result := createWallet settings request draw world
    (result.2.wallet = world.wallet ∧ ∀ answer key, result.1 = .ok answer →
      request.key settings = some key →
      world.wallet.wallets.find? key = some answer.wallet) ∨
    ∃ asset address, getAsset (request.assetName settings) = some asset ∧
      let attached := (Wallet.attachWallet draw.newId request.userId
        (request.resolvedNetwork settings) asset.symbol address).commit world.wallet
      result.2.wallet = attached.2 ∧
        ∀ answer, result.1 = .ok answer → ∃ created, attached.1 = .ok (answer.wallet, created) := by
  intro result
  cases hresolve : (Wallet.resolveAsset (request.assetName settings)).commit world.wallet with
  | mk resolved db =>
  cases resolved with
  | error e =>
      left
      have hresult : result = (.error e, world) := by
        simp only [result, createWallet, hresolve]
      rw [hresult]
      exact ⟨rfl, fun _ _ h => by cases h⟩
  | ok asset =>
  have hasset : getAsset (request.assetName settings) = some asset :=
    ((Wallet.resolveAsset_ensures world.wallet _).commit_ok hresolve).2
  cases hlook : (lookUp request.userId (request.resolvedNetwork settings) asset).commit
      world.wallet with
  | mk found db' =>
  cases found with
  | error e =>
      left
      have hresult : result = (.error e, world) := by
        simp only [result, createWallet, hresolve, hlook]
      rw [hresult]
      exact ⟨rfl, fun _ _ h => by cases h⟩
  | ok row =>
  have hfound := (lookUp_ensures world.wallet _ _ _).commit_ok hlook
  cases row with
  | some existing =>
      left
      have hresult : result = (.ok ⟨200, existing⟩, world) := by
        simp only [result, createWallet, hresolve, hlook]
      rw [hresult]
      refine ⟨rfl, ?_⟩
      intro answer key hanswer hkey
      rw [CreateWalletRequest.key, hasset, Option.map_some, Option.some.injEq] at hkey
      rw [← hkey, ← hfound, ← Except.ok.inj hanswer]
  | none =>
  have hresult : result = attachIssued request.userId (request.resolvedNetwork settings) asset
      draw world := by
    simp only [result, createWallet, hresolve, hlook]
  rw [hresult]
  cases hissue : createAddress (ownerRef request.userId) (request.resolvedNetwork settings)
      (draw.calls.take addressAttempts) world.chain with
  | mk replied chain =>
  cases replied with
  | error e =>
      left
      simp [attachIssued, hissue]
  | ok address =>
      right
      refine ⟨asset, address, hasset, ?_⟩
      cases hattach : (Wallet.attachWallet draw.newId request.userId
          (request.resolvedNetwork settings) asset.symbol address).commit world.wallet with
      | mk attached wallet =>
      cases attached with
      | error e => simp [attachIssued, hissue, hattach]
      | ok pair =>
          simp only [attachIssued, hissue, hattach, true_and]
          intro answer hanswer
          exact ⟨pair.2, by rw [← Except.ok.inj hanswer]⟩

theorem attachWallet_keeps {db : Wallet.Db} {key : WalletKey} {row : Wallet.WalletRow}
    (hfind : db.wallets.find? key = some row) (newId : Uuid) (userId : Int)
    (network asset address : String) :
    ((Wallet.attachWallet newId userId network asset address).commit db).2.wallets.find? key =
      some row := by
  apply commit_preserves (I := fun db : Wallet.Db => db.wallets.find? key = some row) hfind
  apply (Wallet.attachWallet_ensures db newId userId network asset address).mono
    ?_ (fun _ h => h)
  intro result db' hattached
  obtain ⟨_, wallets, hmoved, hwallets⟩ := hattached
  have hsame : db'.wallets = wallets := hmoved.frame.wallets
  rw [hsame]
  rcases hwallets with hold | ⟨added, hinserted⟩
  · rw [hold]
    exact hfind
  · have hne : key ≠ added.key := by
      intro heq
      rw [heq, Table.insert?_free hinserted.insert] at hfind
      cases hfind
    exact (Table.find?_insert? hinserted.insert key).trans ((if_neg hne).trans hfind)

/-- Wallets are never replaced. -/
theorem perform_keeps (world : World) (step : Step) {key : WalletKey} {row : Wallet.WalletRow}
    (hfind : world.wallet.wallets.find? key = some row) :
    (perform settings world step).wallet.wallets.find? key = some row := by
  cases step with
  | createUser newId name email =>
      apply commit_preserves (I := fun db : Wallet.Db => db.wallets.find? key = some row) hfind
      apply (createUser_adds world.wallet newId name email).mono ?_ (fun _ h => h)
      intro _ db' hadded
      rw [hadded.1]
      exact hfind
  | createWallet request draw =>
      rcases createWallet_cases settings request draw world with
        ⟨hsame, _⟩ | ⟨asset, address, _, hattached, _⟩
      · rw [perform, hsame]
        exact hfind
      · rw [perform, hattached]
        exact attachWallet_keeps hfind draw.newId request.userId _ asset.symbol address

/-- The world at the end of a sequence. -/
def performAll (settings : Settings) (world : World) (steps : List Step) : World :=
  steps.foldl (perform settings) world

theorem performAll_keeps (steps : List Step) {world : World} {key : WalletKey}
    {row : Wallet.WalletRow} (hfind : world.wallet.wallets.find? key = some row) :
    (performAll settings world steps).wallet.wallets.find? key = some row := by
  induction steps generalizing world with
  | nil => exact hfind
  | cons step rest ih => exact ih (perform_keeps world step hfind)

/-- An answer shows the wallet of the user, the network and the asset asked for. -/
theorem createWallet_returns {world : World} {request : CreateWalletRequest} {draw : Draw}
    {key : WalletKey} {answer : WalletAnswer} (hkey : request.key settings = some key)
    (hanswer : (createWallet settings request draw world).1 = .ok answer) :
    (perform settings world (.createWallet request draw)).wallet.wallets.find? key =
      some answer.wallet := by
  rcases createWallet_cases settings request draw world with
    ⟨hsame, hfound⟩ | ⟨asset, address, hasset, hattached, hrow⟩
  · rw [perform, hsame]
    exact hfound answer key hanswer hkey
  · obtain ⟨created, hcommit⟩ := hrow answer hanswer
    rw [CreateWalletRequest.key, hasset, Option.map_some, Option.some.injEq] at hkey
    rw [perform, hattached, ← hkey]
    exact ((Wallet.attachWallet_ensures world.wallet draw.newId request.userId _ asset.symbol
      address).commit_ok (Prod.ext hcommit rfl)).1

theorem mem_answers_cons {world : World} {step : Step} {rest : List Step}
    {entry : WalletKey × Wallet.WalletRow}
    (h : entry ∈ answers settings world (step :: rest)) :
    (perform settings world step).wallet.wallets.find? entry.1 = some entry.2 ∨
      entry ∈ answers settings (perform settings world step) rest := by
  cases step with
  | createUser newId name email => exact Or.inr h
  | createWallet request draw =>
      simp only [answers] at h
      split at h
      · next key answer hkey hanswer =>
        rcases List.mem_cons.mp h with hfirst | hlater
        · left
          rw [hfirst]
          exact createWallet_returns hkey hanswer
        · exact Or.inr hlater
      · exact Or.inr h

/-- Each answer shows the wallet which its key leads to at the end. -/
theorem answers_found {steps : List Step} {world : World}
    {entry : WalletKey × Wallet.WalletRow} (h : entry ∈ answers settings world steps) :
    (performAll settings world steps).wallet.wallets.find? entry.1 = some entry.2 := by
  induction steps generalizing world with
  | nil => cases h
  | cons step rest ih =>
      rcases mem_answers_cons h with hfirst | hlater
      · exact performAll_keeps rest hfirst
      · exact ih hlater

theorem answers_repeatable (steps : List Step) (world : World) :
    Repeatable (answers settings world steps) := by
  apply List.pairwise_of_forall_mem_list
  intro earlier hearlier later hlater hkey
  have hfirst := answers_found hearlier
  rw [hkey, answers_found hlater] at hfirst
  exact (Option.some.inj hfirst).symm

/-- Users, and nobody has a wallet or an address yet. -/
structure Fresh (world : World) : Prop where
  users : ∀ user ∈ world.wallet.users.rows, BigSerial user.id
  wallets : world.wallet.wallets.rows = []
  addresses : world.chain.addresses.rows = []

theorem Fresh.matched {world : World} (h : Fresh world) : Matched world := by
  refine ⟨h.users, ?_, ?_, ?_⟩
  · simp [h.wallets]
  · simp [h.wallets]
  · simp [h.addresses]

/-- All requests of a sequence are served, and repeated ones return the same
wallet, exactly when every request stays on the one network of its user. -/
theorem wallets_created_iff {world : World} (hfresh : Fresh world) {steps : List Step}
    (hadmitted : Along settings (Admitted settings) world steps) :
    (Along settings (Served settings) world steps ∧
        Repeatable (answers settings world steps)) ↔
      Along settings (OnOneNetwork settings) world steps := by
  constructor
  · intro hserved
    exact (along_iff hfresh.matched hadmitted).mp hserved.1
  · intro hone
    exact ⟨(along_iff hfresh.matched hadmitted).mpr hone, answers_repeatable steps world⟩

end Runs

/-! ## A user of two networks -/

instance (chain : Blockchain.Db) (generated : String) : Decidable (Drawable chain generated) :=
  decidable_of_iff (generated.length ≤ 64 ∧ '\x00' ∉ generated.toList ∧
    ∀ row ∈ chain.addresses.rows, row.address.val ≠ generated)
    ⟨fun h => ⟨h.1, h.2.1, h.2.2⟩, fun h => ⟨h.length, h.nul, h.fresh⟩⟩

instance decidableFound {α : Type} (found : Option α) : Decidable (∃ a, found = some a) :=
  decidable_of_iff (found.isSome = true) Option.isSome_iff_exists

instance (settings : Settings) (world : World) (step : Step) :
    Decidable (Admitted settings world step) :=
  match step with
  | .createUser _ _ _ => inferInstanceAs (Decidable (_ ∧ _))
  | .createWallet _ _ => inferInstanceAs (Decidable ((∃ _, _) ∧ (∃ _, _) ∧ _ ∧ _))

instance Along.decide (settings : Settings) (P : World → Step → Prop)
    [∀ world step, Decidable (P world step)] (steps : List Step)
    (world : World) : Decidable (Along settings P world steps) :=
  match steps with
  | [] => .isTrue trivial
  | step :: rest =>
    have := Along.decide settings P rest (perform settings world step)
    inferInstanceAs (Decidable (_ ∧ _))

def shippedSettings : Settings where
  defaultNetwork := "BSC"
  sha256 := .spelled
  letterCase := .ascii
  defaultAsset := "USDT"

/-- Both databases are empty. -/
def emptyWorld : World := ⟨.empty, .empty⟩

theorem emptyWorld_fresh : Fresh emptyWorld := by
  constructor <;> simp [emptyWorld, Wallet.Db.empty, Blockchain.Db.empty]

/-- The first answer is lost, the second arrives; the request is then repeated. -/
def oneNetwork : List Step := [
  .createUser 1 "A" "a@example.com",
  .createWallet ⟨1, none, none⟩
    ⟨someUuid 1, [⟨.responseLost, "0xA1"⟩, ⟨.answered, "0xA2"⟩]⟩,
  .createWallet ⟨1, some "BSC", some "usdt"⟩ ⟨someUuid 2, [⟨.answered, "0xA3"⟩]⟩]

theorem oneNetwork_created :
    Along shippedSettings (Admitted shippedSettings) emptyWorld oneNetwork ∧
      ((Along shippedSettings (Served shippedSettings) emptyWorld oneNetwork ∧
          Repeatable (answers shippedSettings emptyWorld oneNetwork)) ↔
        Along shippedSettings (OnOneNetwork shippedSettings) emptyWorld oneNetwork) := by
  have hadmitted : Along shippedSettings (Admitted shippedSettings) emptyWorld oneNetwork := by
    decide +kernel
  exact ⟨hadmitted, wallets_created_iff emptyWorld_fresh hadmitted⟩

/-- A second request of the same user names another network. -/
def twoNetworks : List Step := [
  .createUser 1 "A" "a@example.com",
  .createWallet ⟨1, some "BSC", none⟩ ⟨someUuid 1, [⟨.answered, "0xA1"⟩]⟩,
  .createWallet ⟨1, some "ETH", none⟩ ⟨someUuid 2, [⟨.answered, "0xA2"⟩]⟩]

theorem second_network_is_refused :
    Fresh emptyWorld ∧
      Along shippedSettings (Admitted shippedSettings) emptyWorld twoNetworks ∧
      (createWallet shippedSettings ⟨1, some "ETH", none⟩
        ⟨someUuid 2, [⟨.answered, "0xA2"⟩]⟩
        (performAll shippedSettings emptyWorld (twoNetworks.take 2))).1 =
          .error (.integrity .walletsAddressKey) ∧
      ¬ Along shippedSettings (Served shippedSettings) emptyWorld twoNetworks := by
  have hrefused : (createWallet shippedSettings ⟨1, some "ETH", none⟩
      ⟨someUuid 2, [⟨.answered, "0xA2"⟩]⟩
      (performAll shippedSettings emptyWorld (twoNetworks.take 2))).1 =
        .error (.integrity .walletsAddressKey) := by
    decide +kernel
  refine ⟨emptyWorld_fresh, by decide +kernel, hrefused, ?_⟩
  intro hserved
  obtain ⟨key, answer, _, hanswer, _⟩ := hserved.2.2.1
  exact absurd (hanswer.symm.trans hrefused) (by simp)

end CryptoWallet.WalletCreation
