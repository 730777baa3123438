import CryptoWallet.KeysetPages
import CryptoWallet.WalletDirectory
import Mathlib.Data.List.Infix

/-!
# The history of an account

The ledger entries of a user are served from the newest downwards, in pages of the size
each request asks for.  The entries there were at the first page are served once each,
also when the service appends entries between the pages.
-/

namespace CryptoWallet.Wallet

open Tx

/-! ## The ids of the entries -/

/-- The committed database, and the ids the sequence gave to its ledger entries.  The
entries of one account are inserted under its balance lock, so their ids ascend. -/
structure NumberedDb where
  db : Db
  ids : List Int
  numbered : ids.length = db.ledger.rows.length
  unique : ids.Nodup
  ascending : (ids.zip db.ledger.rows).Pairwise fun row row' =>
    row.2.account = row'.2.account → row.1 < row'.1

def numberedEntries (ids : List Int) (k : Account) (db : Db) : List (Int × LedgerEntry) :=
  (ids.zip db.ledger.rows).filter (·.2.account = k)

/-- `ORDER BY id DESC`. -/
def newestFirst (rows : List (Int × LedgerEntry)) : List (Int × LedgerEntry) :=
  rows.mergeSort fun row row' => row'.1 ≤ row.1

namespace NumberedDb

/-- The entries of an account with their ids. -/
def entriesOf (k : Account) (w : NumberedDb) : List (Int × LedgerEntry) :=
  numberedEntries w.ids k w.db

theorem entriesOf_ascending (k : Account) (w : NumberedDb) :
    (w.entriesOf k).Pairwise (·.1 < ·.1) := by
  apply (w.ascending.sublist List.filter_sublist).imp_of_mem
  intro row row' hrow hrow' hlt
  have haccount : row.2.account = k := by simpa using (List.mem_filter.mp hrow).2
  have haccount' : row'.2.account = k := by simpa using (List.mem_filter.mp hrow').2
  exact hlt (haccount.trans haccount'.symm)

/-- The newest entries of an account are the last ones inserted. -/
theorem newestFirst_entriesOf (k : Account) (w : NumberedDb) :
    newestFirst (w.entriesOf k) = (w.entriesOf k).reverse := by
  have hreverse : (w.entriesOf k).reverse.Pairwise (·.1 > ·.1) :=
    List.pairwise_reverse.mpr (w.entriesOf_ascending k)
  have hperm : (newestFirst (w.entriesOf k)).Perm (w.entriesOf k).reverse :=
    (List.mergeSort_perm _ _).trans (List.reverse_perm _).symm
  have hsorted : (newestFirst (w.entriesOf k)).Pairwise fun row row' => row'.1 ≤ row.1 := by
    have htrans : ∀ a b c : Int × LedgerEntry, decide (b.1 ≤ a.1) = true →
        decide (c.1 ≤ b.1) = true → decide (c.1 ≤ a.1) = true := by
      intro a b c hab hbc
      simp only [decide_eq_true_eq] at hab hbc ⊢
      omega
    have htotal : ∀ a b : Int × LedgerEntry,
        (decide (b.1 ≤ a.1) || decide (a.1 ≤ b.1)) = true := by
      intro a b
      simp only [Bool.or_eq_true, decide_eq_true_eq]
      omega
    exact (List.pairwise_mergeSort htrans htotal (w.entriesOf k)).imp fun h =>
      of_decide_eq_true h
  refine hperm.eq_of_pairwise ?_ hsorted (hreverse.imp fun h => le_of_lt h)
  intro row row' hrow hrow' hle hle'
  have hnodup : ((w.entriesOf k).map Prod.fst).Nodup := by
    have hlt := (w.entriesOf_ascending k).map Prod.fst (S := (· < ·)) fun _ _ h => h
    exact hlt.imp fun h => ne_of_lt h
  have hmem := List.mem_reverse.mp (hperm.mem_iff.mp hrow)
  exact List.inj_on_of_nodup_map hnodup hmem (List.mem_reverse.mp hrow') (le_antisymm hle' hle)

end NumberedDb

/-! ## The route -/

/-- `limit: int = Query(default=50, ge=1, le=200)`. -/
abbrev PageLimit := { limit : Nat // 1 ≤ limit ∧ limit ≤ 200 }

structure LedgerEntryResponse where
  id : Int
  asset : String
  amount : String
  entryType : EntryType
  referenceType : ReferenceType
  referenceId : String
  correlationId : Option String
  deriving DecidableEq

def ledgerEntryResponse (asset : Asset) (row : Int × LedgerEntry) : LedgerEntryResponse where
  id := row.1
  asset := row.2.asset
  amount := formatAmount row.2.amount asset.decimals
  entryType := row.2.entryType
  referenceType := row.2.referenceType
  referenceId := row.2.referenceId
  correlationId := row.2.correlationId

structure TransactionsResponse where
  userId : Int
  asset : String
  items : List LedgerEntryResponse
  pendingTransfers : List TransferResponse
  nextCursor : Option Int

/-- The open transfers of the user, the newest first. -/
def pendingTransfers (userId : Int) (db : Db) : List Transfer :=
  ((db.transfers.select fun t =>
      t.status.isOpen && (t.fromUserId = userId || t.toUserId = userId)).mergeSort
    fun t t' => t'.createdAt ≤ t.createdAt).take 50

/-- `asset or default_asset`. -/
def askedAsset (defaultAsset : String) (asset : Option String) : String :=
  match asset with
  | none => defaultAsset
  | some symbol => if symbol = "" then defaultAsset else symbol

/-- `GET /users/{user_id}/transactions`, when the entries have these ids. -/
def getTransactions (defaultAsset : String) (userId : Int) (asset : Option String)
    (limit : PageLimit) (cursor : Option Int) (ids : List Int) :
    WalletTx TransactionsResponse := do
  let resolved ← resolveAsset (askedAsset defaultAsset asset)
  let _ ← getUser userId
  let entries ← query fun db => KeysetPages.page Prod.fst limit.val cursor
    (newestFirst (numberedEntries ids (userId, resolved.symbol) db))
  let pending ← query (pendingTransfers userId)
  let pendingResponses ← orRaise (pending.mapM transferResponse)
  return {
    userId
    asset := resolved.symbol
    items := entries.map (ledgerEntryResponse resolved)
    pendingTransfers := pendingResponses
    nextCursor := KeysetPages.nextCursor Prod.fst limit.val entries }

/-! ## What the service keeps -/

theorem stepTx_ledger {db : Db} (h : Sound db) (config : Config) (s : Step) :
    Ensures (stepTx config s) db (fun _ db' => db.ledger.rows <+: db'.ledger.rows)
      fun _ => True := by
  have hcreated : ∀ {scope newId request} {t : Transfer} {db₀ db' : Db},
      TransferCreated scope newId request db₀ t db' →
        db₀.ledger.rows <+: db'.ledger.rows := by
    intro scope newId request t db₀ db' hcreated
    obtain ⟨asset, mid, transfers, outbox, _, _, hmoved, _, _, rfl⟩ := hcreated.change
    exact hmoved.ledger_prefix
  cases hs : s.creates with
  | false => exact (stepTx_evolves h config hs).mono (fun _ _ h => h.ledger) fun _ h => h
  | true =>
      cases s with
      | createTransfer scope newId request =>
          apply Ensures.discard
          exact (createTransfer_ensures db scope newId request).mono
            (fun _ _ h => hcreated h) fun _ _ => trivial
      | postTransfer scope newId body =>
          apply Ensures.discard
          apply (postTransfer_ensures db config.api scope newId body).mono
          · rintro _ _ ⟨request, _, hposted⟩
            cases hposted with
            | replayed => exact List.prefix_rfl
            | created hnew _ _ =>
                have hprefix := hcreated hnew
                exact hprefix
          · exact fun _ _ => trivial
      | createUser _ _ _ | attachWallet _ _ _ _ _ | relay _ _ | progress _
      | dispatch _ _ => cases hs

/-- The assets of all transfers are listed. -/
def TransfersListed (db : Db) : Prop :=
  ∀ t ∈ db.transfers.rows, (getAsset t.asset).isSome = true

theorem Evolved.transfersListed {db db' : Db} (h : Evolved db db') (hdb : TransfersListed db) :
    TransfersListed db' := by
  intro t' ht'
  obtain ⟨i, hi, rfl⟩ := List.getElem_of_mem ht'
  have hi' : i < db.transfers.rows.length := h.transfers.length_eq ▸ hi
  have hforward := h.transfers.get hi' hi
  have hasset : db'.transfers.rows[i].asset = db.transfers.rows[i].asset := hforward.terms.asset
  rw [hasset]
  exact hdb _ (List.getElem_mem hi')

theorem TransferCreated.transfersListed {scope : Scope} {newId : Uuid}
    {request : TransferRequest} {db db' : Db} {t : Transfer}
    (h : TransferCreated scope newId request db t db') (hdb : TransfersListed db) :
    TransfersListed db' := by
  intro row hrow
  rw [h.rows] at hrow
  rcases List.mem_append.mp hrow with hold | hnew
  · exact hdb row hold
  · rw [List.mem_singleton.mp hnew]
    obtain ⟨asset, _, _, _, hasset, hfrom, _⟩ := h.change
    obtain ⟨stored, hstored, hsame⟩ := hfrom.asset
    have hsymbol : t.asset = asset.symbol := by
      have hfits : asset.symbol.length ≤ 16 := by
        rw [getAsset_eq_usdt hasset]
        decide
      rw [hsame]
      exact varchar_eq hfits hstored
    rw [hsymbol, getAsset_symbol hasset]
    rfl

theorem stepTx_transfersListed {db : Db} (h : Sound db) (hdb : TransfersListed db)
    (config : Config) (s : Step) :
    Ensures (stepTx config s) db (fun _ => TransfersListed) fun _ => True := by
  cases hs : s.creates with
  | false =>
      exact (stepTx_evolves h config hs).mono (fun _ _ h => h.transfersListed hdb) fun _ h => h
  | true =>
      cases s with
      | createTransfer scope newId request =>
          apply Ensures.discard
          exact (createTransfer_ensures db scope newId request).mono
            (fun _ _ h => h.transfersListed hdb) fun _ _ => trivial
      | postTransfer scope newId body =>
          apply Ensures.discard
          apply (postTransfer_ensures db config.api scope newId body).mono
          · rintro _ _ ⟨request, _, hposted⟩
            cases hposted with
            | replayed => exact hdb
            | created h _ _ => exact h.transfersListed hdb
          · exact fun _ _ => trivial
      | createUser _ _ _ | attachWallet _ _ _ _ _ | relay _ _ | progress _
      | dispatch _ _ => cases hs

/-- A state the pages can be read from; later states follow from it. -/
structure Servable (db : Db) : Prop where
  sound : Sound db
  listed : TransfersListed db

theorem Servable.empty : Servable Db.empty := ⟨Sound.empty, by intro t ht; cases ht⟩

/-- The entries and users of a state are there in the later ones. -/
structure Keeps (db db' : Db) : Prop where
  ledger : db.ledger.rows <+: db'.ledger.rows
  users : ∀ id user, db.users.find? id = some user → db'.users.find? id = some user

theorem Servable.runSteps {db : Db} (h : Servable db) (config : Config) (steps : List Step) :
    Servable (runSteps (step config) db steps) ∧
      Keeps db (CryptoWallet.runSteps (step config) db steps) := by
  have hstep : ∀ db₁ s, Servable db₁ ∧ Keeps db db₁ →
      Servable (step config s db₁) ∧ Keeps db (step config s db₁) := by
    rintro db₁ s ⟨hservable, hkeeps⟩
    have hledger := commit_preserves (I := fun db' : Db => db₁.ledger.rows <+: db'.ledger.rows)
      List.prefix_rfl (stepTx_ledger hservable.sound config s)
    have hextends := commit_preserves
      (I := fun db' : Db => ∀ id user, db₁.users.find? id = some user →
        db'.users.find? id = some user) (fun _ _ h => h)
      ((stepTx_extends hservable.sound config s).mono (fun _ _ h => h.users) fun _ h => h)
    have hlisted := commit_preserves (I := TransfersListed) hservable.listed
      (stepTx_transfersListed hservable.sound hservable.listed config s)
    exact ⟨⟨step_sound hservable.sound config s, hlisted⟩,
      ⟨hkeeps.ledger.trans hledger, fun id user h => hextends id user (hkeeps.users id user h)⟩⟩
  exact runSteps_preserves hstep ⟨h, List.prefix_rfl, fun _ _ h => h⟩ steps

/-! ## Reading all pages -/

/-- The service took steps, and the new entries got the next ids. -/
structure Advances (config : Config) (w w' : NumberedDb) : Prop where
  steps : ∃ steps, w'.db = runSteps (step config) w.db steps
  ids : w.ids <+: w'.ids

section Pages

variable (defaultAsset : String) (userId : Int) (asset : Option String)

def servePage (limit : PageLimit) (cursor : Option Int) (w : NumberedDb) :
    Except Failure TransactionsResponse × Db :=
  commit (getTransactions defaultAsset userId asset limit cursor w.ids) w.db

/-- Following `next_cursor` from a request on until it is null gives these items. -/
inductive Follows (w : Nat → NumberedDb) (limits : Nat → PageLimit) :
    Nat → Option Int → List LedgerEntryResponse → Prop where
  | last (i : Nat) (cursor : Option Int) (response : TransactionsResponse)
      (hserve : servePage defaultAsset userId asset (limits i) cursor (w i) =
        (.ok response, (w i).db))
      (hnext : response.nextCursor = none) :
      Follows w limits i cursor response.items
  | more (i : Nat) (cursor : Option Int) (response : TransactionsResponse) (c : Int)
      (rest : List LedgerEntryResponse)
      (hserve : servePage defaultAsset userId asset (limits i) cursor (w i) =
        (.ok response, (w i).db))
      (hnext : response.nextCursor = some c)
      (hrest : Follows w limits (i + 1) (some c) rest) :
      Follows w limits i cursor (response.items ++ rest)

end Pages

variable {defaultAsset : String} {userId : Int} {asked : Option String} {asset : Asset}

theorem transferResponses_ok {ts : List Transfer}
    (h : ∀ t ∈ ts, (getAsset t.asset).isSome = true) :
    ∃ responses, ts.mapM transferResponse = .ok responses := by
  induction ts with
  | nil => exact ⟨[], rfl⟩
  | cons t ts ih =>
      obtain ⟨responses, hresponses⟩ := ih fun t' ht' => h t' (List.mem_cons_of_mem t ht')
      have hlisted := h t List.mem_cons_self
      cases hasset : getAsset t.asset with
      | none =>
          rw [hasset] at hlisted
          cases hlisted
      | some a =>
          have hresponse : ∃ response, transferResponse t = .ok response := by
            unfold transferResponse
            rw [hasset]
            exact ⟨_, rfl⟩
          obtain ⟨response, hresponse⟩ := hresponse
          refine ⟨response :: responses, ?_⟩
          rw [List.mapM_cons, hresponse, hresponses]
          rfl

theorem pendingTransfers_subset (userId : Int) (db : Db) :
    ∀ t ∈ pendingTransfers userId db, t ∈ db.transfers.rows := by
  intro t ht
  have hsorted := List.mem_mergeSort.mp (List.mem_of_mem_take ht)
  exact (List.mem_filter.mp hsorted).1

theorem servePage_ok {w : NumberedDb} {user : User} (h : Servable w.db)
    (hasset : getAsset (askedAsset defaultAsset asked) = some asset)
    (huser : w.db.users.find? userId = some user) (limit : PageLimit) (cursor : Option Int) :
    ∃ response, servePage defaultAsset userId asked limit cursor w =
        (.ok response, w.db) ∧
      response.items = (KeysetPages.page Prod.fst limit.val cursor
        (newestFirst (w.entriesOf (userId, asset.symbol)))).map (ledgerEntryResponse asset) ∧
      response.nextCursor = KeysetPages.nextCursor Prod.fst limit.val
        (KeysetPages.page Prod.fst limit.val cursor
          (newestFirst (w.entriesOf (userId, asset.symbol)))) := by
  obtain ⟨responses, hresponses⟩ := transferResponses_ok fun t ht =>
    h.listed t (pendingTransfers_subset userId w.db t ht)
  have hresolve : Returns (resolveAsset (askedAsset defaultAsset asked)) w.db asset w.db := by
    unfold resolveAsset
    rw [hasset]
    exact Returns.pure asset w.db
  have hget := getUser_returns huser
  let entries := KeysetPages.page Prod.fst limit.val cursor
    (newestFirst (w.entriesOf (userId, asset.symbol)))
  refine ⟨⟨userId, asset.symbol, entries.map (ledgerEntryResponse asset), responses,
    KeysetPages.nextCursor Prod.fst limit.val entries⟩, Returns.commit ?_, rfl, rfl⟩
  apply Returns.bind hresolve
  apply Returns.bind hget
  apply Returns.bind (Returns.query _ _)
  apply Returns.bind (Returns.query _ _)
  apply Returns.bind (Returns.orRaise hresponses w.db)
  exact Returns.pure _ w.db

/-- The rows of an account at one request. -/
def viewOf (k : Account) (w : NumberedDb) : List (Int × LedgerEntry) :=
  newestFirst (w.entriesOf k)

/-- The service serves every page from these states. -/
structure Serves (config : Config) (userId : Int) (w : Nat → NumberedDb) : Prop where
  servable : Servable (w 0).db
  user : ∃ user, (w 0).db.users.find? userId = some user
  advances : ∀ i, Advances config (w i) (w (i + 1))

theorem Serves.later {config : Config} {w : Nat → NumberedDb} (h : Serves config userId w)
    (i : Nat) : Servable (w i).db ∧ Keeps (w 0).db (w i).db ∧ (w 0).ids <+: (w i).ids := by
  induction i with
  | zero => exact ⟨h.servable, ⟨List.prefix_rfl, fun _ _ h => h⟩, List.prefix_rfl⟩
  | succ i ih =>
      obtain ⟨hservable, hkeeps, hids⟩ := ih
      obtain ⟨steps, hsteps⟩ := (h.advances i).steps
      have hrun := hservable.runSteps config steps
      rw [← hsteps] at hrun
      refine ⟨hrun.1, ⟨hkeeps.ledger.trans hrun.2.ledger, ?_⟩, hids.trans (h.advances i).ids⟩
      intro id user hfind
      exact hrun.2.users id user (hkeeps.users id user hfind)

/-- The rows of the first request are the oldest ones of every later request. -/
theorem Serves.kept {config : Config} {w : Nat → NumberedDb} (h : Serves config userId w)
    (k : Account) (i : Nat) : viewOf k (w 0) <:+ viewOf k (w i) := by
  obtain ⟨_, hkeeps, ids, hids⟩ := h.later i
  obtain ⟨rows, hrows⟩ := hkeeps.ledger
  unfold viewOf
  rw [NumberedDb.newestFirst_entriesOf, NumberedDb.newestFirst_entriesOf,
    List.reverse_suffix]
  unfold NumberedDb.entriesOf numberedEntries
  rw [← hids, ← hrows, List.zip_append (w 0).numbered]
  exact (List.prefix_append _ _).filter _

theorem viewOf_descending (k : Account) (w : NumberedDb) :
    (viewOf k w).Pairwise (·.1 > ·.1) := by
  unfold viewOf
  rw [NumberedDb.newestFirst_entriesOf]
  exact List.pairwise_reverse.mpr (w.entriesOf_ascending k)

section Served

variable {config : Config} {w : Nat → NumberedDb} {limits : Nat → PageLimit}

theorem Serves.page (h : Serves config userId w)
    (hasset : getAsset (askedAsset defaultAsset asked) = some asset) (i : Nat)
    (limit : PageLimit) (cursor : Option Int) :
    ∃ response, servePage defaultAsset userId asked limit cursor (w i) =
        (.ok response, (w i).db) ∧
      response.items = (KeysetPages.page Prod.fst limit.val cursor
        (viewOf (userId, asset.symbol) (w i))).map (ledgerEntryResponse asset) ∧
      response.nextCursor = KeysetPages.nextCursor Prod.fst limit.val
        (KeysetPages.page Prod.fst limit.val cursor
          (viewOf (userId, asset.symbol) (w i))) := by
  obtain ⟨hservable, hkeeps, _⟩ := h.later i
  obtain ⟨user, huser⟩ := h.user
  exact servePage_ok hservable hasset (hkeeps.users userId user huser) limit cursor

/-- The pages of the route are the pages of the rows. -/
theorem Serves.follows_of_followed (h : Serves config userId w)
    (hasset : getAsset (askedAsset defaultAsset asked) = some asset) {i : Nat}
    {cursor : Option Int} {rows : List (Int × LedgerEntry)}
    (hrows : KeysetPages.Followed Prod.fst (fun i => viewOf (userId, asset.symbol) (w i))
      (fun i => (limits i).val) i cursor rows) :
    Follows defaultAsset userId asked w limits i cursor
      (rows.map (ledgerEntryResponse asset)) := by
  induction hrows with
  | last i cursor hnext =>
      obtain ⟨response, hserve, hitems, hcursor⟩ := h.page hasset i (limits i) cursor
      rw [← hitems]
      exact Follows.last i cursor response hserve (hcursor.trans hnext)
  | more i cursor c rest hnext _ ih =>
      obtain ⟨response, hserve, hitems, hcursor⟩ := h.page hasset i (limits i) cursor
      rw [List.map_append, ← hitems]
      exact Follows.more i cursor response c _ hserve (hcursor.trans hnext) ih

theorem Serves.followed_of_follows (h : Serves config userId w)
    (hasset : getAsset (askedAsset defaultAsset asked) = some asset) {i : Nat}
    {cursor : Option Int} {items : List LedgerEntryResponse}
    (hitems : Follows defaultAsset userId asked w limits i cursor items) :
    ∃ rows, KeysetPages.Followed Prod.fst (fun i => viewOf (userId, asset.symbol) (w i))
        (fun i => (limits i).val) i cursor rows ∧
      items = rows.map (ledgerEntryResponse asset) := by
  have hsame : ∀ {i cursor response}, servePage defaultAsset userId asked (limits i) cursor
      (w i) = (.ok response, (w i).db) →
        response.items = (KeysetPages.page Prod.fst (limits i).val cursor
          (viewOf (userId, asset.symbol) (w i))).map (ledgerEntryResponse asset) ∧
        response.nextCursor = KeysetPages.nextCursor Prod.fst (limits i).val
          (KeysetPages.page Prod.fst (limits i).val cursor
            (viewOf (userId, asset.symbol) (w i))) := by
    intro i cursor response hserve
    obtain ⟨response', hserve', hpage⟩ := h.page hasset i (limits i) cursor
    rw [hserve, Prod.mk.injEq, Except.ok.injEq] at hserve'
    rw [hserve'.1]
    exact hpage
  induction hitems with
  | last i cursor response hserve hnext =>
      obtain ⟨hpage, hcursor⟩ := hsame hserve
      exact ⟨_, KeysetPages.Followed.last i cursor (hcursor.symm.trans hnext), hpage⟩
  | more i cursor response c rest hserve hnext _ ih =>
      obtain ⟨hpage, hcursor⟩ := hsame hserve
      obtain ⟨rows, hrows, rfl⟩ := ih
      refine ⟨_, KeysetPages.Followed.more i cursor c rows (hcursor.symm.trans hnext) hrows, ?_⟩
      rw [hpage, List.map_append]

end Served

/-- Reading starts in any state the service reaches, at an existing user and a listed asset.
Whatever the service does between the requests and whatever the limits are, following
`next_cursor` ends and gives the entries of the first request, the newest first. -/
theorem pages_are_the_history (config : Config) (before : List Step) (w : Nat → NumberedDb)
    (limits : Nat → PageLimit) {user : User} (hstart : (w 0).db = run config before)
    (hadvances : ∀ i, Advances config (w i) (w (i + 1)))
    (hasset : getAsset (askedAsset defaultAsset asked) = some asset)
    (huser : (w 0).db.users.find? userId = some user) :
    ∃ rows : List (Int × LedgerEntry), rows.Perm ((w 0).entriesOf (userId, asset.symbol)) ∧
      rows.Pairwise (·.1 > ·.1) ∧
      ∀ items, Follows defaultAsset userId asked w limits 0 none items ↔
        items = rows.map (ledgerEntryResponse asset) := by
  have hserves : Serves config userId w := by
    refine ⟨?_, ⟨user, huser⟩, hadvances⟩
    rw [hstart]
    exact (Servable.empty.runSteps config before).1
  have hall : KeysetPages.Followed Prod.fst
      (fun i => viewOf (userId, asset.symbol) (w i)) (fun i => (limits i).val) 0 none
      (viewOf (userId, asset.symbol) (w 0)) :=
    KeysetPages.followed_all (fun i => (limits i).property.1)
      (fun i => viewOf_descending _ (w i)) fun i => hserves.kept _ i
  refine ⟨viewOf (userId, asset.symbol) (w 0), List.mergeSort_perm _ _,
    viewOf_descending _ (w 0), fun items => ⟨fun hitems => ?_, fun hitems => ?_⟩⟩
  · obtain ⟨rows, hrows, rfl⟩ := hserves.followed_of_follows hasset hitems
    rw [hrows.unique hall]
  · rw [hitems]
    exact hserves.follows_of_followed hasset hall

/-! ### A second deposit between two pages -/

/-- The sequence when no id is skipped. -/
def NumberedDb.inOrder (db : Db) : NumberedDb where
  db := db
  ids := (List.range db.ledger.rows.length).map Int.ofNat
  numbered := by simp
  unique := List.nodup_range.map fun _ _ h => Int.ofNat.inj h
  ascending := by
    have hids : ((List.range db.ledger.rows.length).map Int.ofNat).Pairwise (· < ·) := by
      apply List.pairwise_lt_range.map
      intro n m h
      exact Int.ofNat_lt.mpr h
    have hfst : (((List.range db.ledger.rows.length).map Int.ofNat).zip db.ledger.rows).Pairwise
        (·.1 < ·.1) := by
      apply List.Pairwise.of_map Prod.fst (fun _ _ h => h)
      rw [List.map_fst_zip (by simp)]
      exact hids
    refine hfst.imp ?_
    intro row row' h _
    exact h

def secondDeposit : Step :=
  .dispatch spentScope ⟨.uuid4 2, .depositConfirmed, "blockchain-service", "",
    [("network", .str "BSC"), ("asset", .str "USDT"), ("tx_hash", .str "0x2"),
      ("log_index", .int 0), ("to_address", .str "0xA"), ("amount_units", .str "50"),
      ("block_hash", .str "0xb2")], []⟩

/-- The deposit is posted after the first request. -/
def grownDb : Nat → NumberedDb
  | 0 => .inOrder (run spentConfig spentSteps)
  | _ + 1 => .inOrder (run spentConfig (spentSteps ++ [secondDeposit]))

set_option maxRecDepth 10000 in
theorem grownDb_entries :
    ((grownDb 0).entriesOf (1, "USDT")).length = 1 ∧
      ((grownDb 1).entriesOf (1, "USDT")).length = 2 ∧
      ((grownDb 0).db.users.find? 1).isSome = true := by
  decide +kernel

theorem inOrder_advances (config : Config) (before after : List Step) :
    Advances config (.inOrder (run config before)) (.inOrder (run config (before ++ after))) := by
  have hkeeps := (Servable.empty.runSteps config before).1.runSteps config after
  refine ⟨⟨after, run_append config before after⟩, ?_⟩
  have hlength : (run config before).ledger.rows.length ≤
      (run config (before ++ after)).ledger.rows.length := by
    rw [run_append]
    exact hkeeps.2.ledger.length_le
  obtain ⟨added, hadded⟩ := Nat.exists_eq_add_of_le hlength
  dsimp only [NumberedDb.inOrder]
  rw [hadded, List.range_add, List.map_append]
  exact List.prefix_append _ _

theorem grownDb_advances (i : Nat) : Advances spentConfig (grownDb i) (grownDb (i + 1)) := by
  cases i with
  | zero => exact inOrder_advances spentConfig spentSteps [secondDeposit]
  | succ i => exact ⟨⟨[], rfl⟩, List.prefix_rfl⟩

theorem grown_history_is_paged :
    ((grownDb 0).entriesOf (1, "USDT")).length = 1 ∧
      ((grownDb 1).entriesOf (1, "USDT")).length = 2 ∧
      ∃ rows : List (Int × LedgerEntry), rows.Perm ((grownDb 0).entriesOf (1, usdt.symbol)) ∧
        rows.Pairwise (·.1 > ·.1) ∧
        ∀ items, Follows "USDT" 1 none grownDb (fun _ => ⟨1, by decide⟩) 0 none items ↔
          items = rows.map (ledgerEntryResponse usdt) := by
  obtain ⟨hfirst, hsecond, huser⟩ := grownDb_entries
  obtain ⟨user, huser⟩ := Option.isSome_iff_exists.mp huser
  exact ⟨hfirst, hsecond, pages_are_the_history spentConfig spentSteps grownDb _ rfl
    grownDb_advances (by decide) huser⟩

end CryptoWallet.Wallet
