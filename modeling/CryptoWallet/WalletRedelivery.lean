import CryptoWallet.Redelivery
import CryptoWallet.WalletSystem
import Mathlib.Data.List.Induction

/-!
# Redelivered events have no second effect

`processed_events` absorbs a second delivery of an event id.  A fact which
comes again under a fresh id is absorbed by the unique key of the ledger if it
is about a deposit, and by the status of the transfer otherwise.

Two states are alike when they differ at most in the processed ids and in what
a repeated broadcast may rewrite.  Alike states handle an event alike, and an
absorbed event leaves a state which is alike.
-/

namespace CryptoWallet.Wallet

open Tx

/-! ## States which are alike -/

/-- A transfer without what a repeated broadcast may rewrite. -/
def Transfer.core (t : Transfer) : Transfer :=
  { t with txHash := none, updatedAt := 0 }

theorem Transfer.core_id (t : Transfer) : t.core.id = t.id := rfl

structure Alike (db db' : Db) : Prop where
  users : db.users = db'.users
  wallets : db.wallets = db'.wallets
  balances : db.balances = db'.balances
  ledger : db.ledger = db'.ledger
  transfers : db.transfers.rows.map Transfer.core =
    db'.transfers.rows.map Transfer.core

namespace Alike

variable {db db' db'' : Db}

theorem refl (db : Db) : Alike db db := ⟨rfl, rfl, rfl, rfl, rfl⟩

theorem symm (h : Alike db db') : Alike db' db :=
  ⟨h.users.symm, h.wallets.symm, h.balances.symm, h.ledger.symm,
    h.transfers.symm⟩

theorem trans (h : Alike db db') (h' : Alike db' db'') : Alike db db'' :=
  ⟨h.users.trans h'.users, h.wallets.trans h'.wallets,
    h.balances.trans h'.balances, h.ledger.trans h'.ledger,
    h.transfers.trans h'.transfers⟩

theorem named (h : Alike db db') (payload : Payload) :
    (db.named payload).map Transfer.core = (db'.named payload).map Transfer.core := by
  unfold Db.named
  cases namedId payload with
  | none => rfl
  | some id => exact Table.map_find?_eq Transfer.core_id h.transfers id

theorem saveTransfer (h : Alike db db') {t t' : Transfer} (ht : t.core = t'.core) :
    Alike { db with transfers := db.transfers.replace t }
      { db' with transfers := db'.transfers.replace t' } :=
  ⟨h.users, h.wallets, h.balances, h.ledger,
    Table.replace_map_eq Transfer.core_id h.transfers ht⟩

end Alike

/-! ## Alike states handle an event alike -/

section Agree

variable {db db' : Db}

theorem ensureBalance_agree (h : Alike db db') (userId : Int) (asset : String) :
    Agree (ensureBalance userId asset) (ensureBalance userId asset) db db'
      (fun _ => Alike) := by
  unfold ensureBalance
  apply Agree.orRaise_bind
  intro stored _
  apply Agree.query_bind
  rw [h.balances]
  cases db'.balances.find? (userId, stored.val) with
  | some b => exact Agree.pure h
  | none =>
      apply Agree.query_bind
      rw [h.users]
      cases db'.users.find? userId with
      | none => exact Agree.throw _
      | some user =>
          apply Agree.modifyDb
          refine ⟨h.users, h.wallets, ?_, h.ledger, h.transfers⟩
          simp only [h.balances]

theorem lockBalance_agree (h : Alike db db') (userId : Int) (asset : String) :
    Agree (lockBalance userId asset) (lockBalance userId asset) db db'
      (fun _ => Alike) := by
  unfold lockBalance
  apply Agree.bind (ensureBalance_agree h userId asset)
  intro _ db₁ db₁' h₁
  apply Agree.query_bind
  rw [h₁.balances]
  cases db₁'.balances.find? (userId, asset) with
  | none => exact Agree.throw _
  | some b =>
      apply Agree.lockRow_bind
      exact Agree.pure h₁

theorem insertEntry_agree (h : Alike db db') (scope : Scope) (asset : String)
    (posting : Posting) :
    Agree (insertEntry scope asset posting) (insertEntry scope asset posting)
      db db' (fun _ => Alike) := by
  unfold insertEntry
  apply Agree.orRaise_bind
  intro storedAsset _
  apply Agree.orRaise_bind
  intro referenceId _
  apply Agree.orRaise_bind
  intro correlationId _
  split
  · apply Agree.query_bind
    rw [h.ledger]
    split
    · exact Agree.pure h
    · apply Agree.query_bind
      rw [h.users]
      cases db'.users.find? posting.userId with
      | none => exact Agree.throw _
      | some user =>
          apply Agree.modifyDb_bind
          exact Agree.pure ⟨h.users, h.wallets, h.balances, rfl, h.transfers⟩
  · exact Agree.throw _

theorem updateBalance_agree (h : Alike db db') (account : Account)
    (condition : Balance → Bool) (posted reserved : Balance → Int) :
    Agree (updateBalance account condition posted reserved)
      (updateBalance account condition posted reserved) db db'
      (fun _ => Alike) := by
  unfold updateBalance
  apply Agree.query_bind
  rw [h.balances]
  cases db'.balances.find? account with
  | none => exact Agree.pure h
  | some b =>
      simp only
      split
      · apply Agree.lockRow_bind
        apply Agree.orRaise_bind
        intro b' _
        apply Agree.modifyDb_bind
        apply Agree.pure
        refine ⟨h.users, h.wallets, ?_, h.ledger, h.transfers⟩
        simp only [h.balances]
      · exact Agree.pure h

theorem postEntry_agree (h : Alike db db') (scope : Scope) (asset : String)
    (posting : Posting) :
    Agree (postEntry scope asset posting) (postEntry scope asset posting)
      db db' (fun _ => Alike) := by
  unfold postEntry
  apply Agree.bind (lockBalance_agree h posting.userId asset)
  intro _ db₁ db₁' h₁
  apply Agree.bind (insertEntry_agree h₁ scope asset posting)
  intro inserted db₂ db₂' h₂
  cases inserted with
  | false => exact Agree.pure h₂
  | true =>
      apply Agree.bind (updateBalance_agree h₂ _ _ _ _)
      exact fun _ _ _ h₃ => Agree.pure h₃

theorem postSorted_agree (h : Alike db db') (scope : Scope) (asset : String)
    (postings : List Posting) :
    Agree (postSorted scope asset postings) (postSorted scope asset postings)
      db db' (fun _ => Alike) := by
  induction postings generalizing db db' with
  | nil => exact Agree.pure h
  | cons p rest ih =>
      apply Agree.bind (postEntry_agree h scope asset p)
      intro _ db₁ db₁' h₁
      apply Agree.bind (ih h₁)
      exact fun _ _ _ h₂ => Agree.pure h₂

theorem releaseHold_agree (h : Alike db db') (userId : Int) (asset : String)
    (amount : Int) :
    Agree (releaseHold userId asset amount) (releaseHold userId asset amount)
      db db' (fun _ => Alike) := by
  apply Agree.bind (updateBalance_agree h _ _ _ _)
  exact fun _ _ _ h₁ => Agree.pure h₁

theorem postDeposit_agree (h : Alike db db') (scope : Scope) (asset : Json)
    (posting : Posting) :
    Agree (postDeposit scope asset posting) (postDeposit scope asset posting)
      db db' (fun _ => Alike) := by
  unfold postDeposit
  apply Agree.orRaise_bind
  intro text _
  apply Agree.bind (postSorted_agree h scope text (sortPostings [posting]))
  exact fun _ _ _ h₁ => Agree.pure h₁

theorem walletByAddress_agree (h : Alike db db') (address : Json) :
    Agree (walletByAddress address) (walletByAddress address) db db'
      (fun _ => Alike) := by
  unfold walletByAddress
  apply Agree.orRaise_bind
  intro bound _
  cases bound with
  | none => exact Agree.pure h
  | some text =>
      apply Agree.query ?_ h
      rw [h.wallets]

theorem creditDeposit_agree (h : Alike db db') (scope : Scope) (payload : Payload) :
    Agree (creditDeposit scope payload) (creditDeposit scope payload) db db'
      (fun _ => Alike) := by
  unfold creditDeposit
  apply Agree.orRaise_bind
  intro address _
  apply Agree.bind (walletByAddress_agree h address)
  intro wallet db₁ db₁' h₁
  cases wallet with
  | none => exact Agree.pure h₁
  | some wallet =>
      apply Agree.orRaise_bind
      intro amountUnits _
      apply Agree.orRaise_bind
      intro amount _
      apply Agree.orRaise_bind
      intro asset _
      apply Agree.orRaise_bind
      intro reference _
      exact postDeposit_agree h₁ scope asset _

theorem reverseDeposit_agree (h : Alike db db') (scope : Scope)
    (payload : Payload) :
    Agree (reverseDeposit scope payload) (reverseDeposit scope payload) db db'
      (fun _ => Alike) := by
  unfold reverseDeposit
  split
  · exact Agree.pure h
  · apply Agree.orRaise_bind
    intro address _
    apply Agree.bind (walletByAddress_agree h address)
    intro wallet db₁ db₁' h₁
    cases wallet with
    | none => exact Agree.pure h₁
    | some wallet =>
        apply Agree.orRaise_bind
        intro amountUnits _
        apply Agree.orRaise_bind
        intro amount _
        apply Agree.orRaise_bind
        intro reference _
        apply Agree.orRaise_bind
        intro asset _
        exact postDeposit_agree h₁ scope asset _

theorem loadForUpdate_returns {payload : Payload} {transferId : Json} {id : Uuid}
    (hitem : payload.item "transfer_id" = .ok transferId)
    (hid : uuidOf transferId = .ok id) (db : Db) :
    Returns (loadForUpdate transferId) db (db.named payload) db := by
  rw [named_eq_find? hitem hid]
  unfold loadForUpdate
  apply Returns.bind (Returns.orRaise hid db)
  apply Returns.bind (Returns.query _ db)
  cases db.transfers.find? id with
  | none => exact Returns.pure none db
  | some t => exact Returns.bind (Returns.lockRow _ db) (Returns.pure (some t) db)

/-- The common beginning of the handlers leaves the comparison to the transfer
found in each state. -/
theorem loaded_agree {α : Type} {payload : Payload} {k : Option Transfer → WalletTx α}
    {post : α → Db → Db → Prop}
    (h : Agree (k (db.named payload)) (k (db'.named payload)) db db' post) :
    Agree (orRaise (payload.item "transfer_id") >>= fun transferId =>
        loadForUpdate transferId >>= k)
      (orRaise (payload.item "transfer_id") >>= fun transferId =>
        loadForUpdate transferId >>= k) db db' post := by
  apply Agree.orRaise_bind
  intro transferId hitem
  cases hid : uuidOf transferId with
  | ok id =>
      exact Agree.returns_bind (loadForUpdate_returns hitem hid db)
        (loadForUpdate_returns hitem hid db') h
  | error e =>
      unfold loadForUpdate
      rw [hid]
      exact fun _ _ => rfl

/-- The transfer an event names in alike states. -/
theorem Alike.named_cases (h : Alike db db') (payload : Payload) :
    (db.named payload = none ∧ db'.named payload = none) ∨
      ∃ t t', db.named payload = some t ∧ db'.named payload = some t' ∧
        t.core = t'.core := by
  have hcore := h.named payload
  cases hnamed : db.named payload with
  | none =>
      rw [hnamed] at hcore
      exact Or.inl ⟨rfl, Option.map_eq_none_iff.mp hcore.symm⟩
  | some t =>
      rw [hnamed] at hcore
      obtain ⟨t', hnamed', hcore'⟩ := Option.map_eq_some_iff.mp hcore.symm
      exact Or.inr ⟨t, t', rfl, hnamed', hcore'.symm⟩

theorem mergedTxHash_agree (payload : Payload) (t t' : Transfer)
    {α : Type} {k k' : Option String → WalletTx α} {post : α → Db → Db → Prop}
    (h : ∀ txHash txHash', Agree (k txHash) (k' txHash') db db' post) :
    Agree (orRaise (mergedTxHash payload t) >>= k)
      (orRaise (mergedTxHash payload t') >>= k') db db' post := by
  unfold mergedTxHash
  simp only
  split
  · apply Agree.orRaise_bind
    exact fun txHash _ => h txHash txHash
  · exact h t.txHash t'.txHash

theorem markBroadcasted_agree (h : Alike db db') (scope : Scope)
    {payload : Payload} (hbefore : ¬db.Reached payload .broadcasted) :
    Agree (markBroadcasted scope payload) (markBroadcasted scope payload) db db'
      (fun _ => Alike) := by
  apply loaded_agree
  rcases h.named_cases payload with ⟨hnamed, hnamed'⟩ | ⟨t, t', hnamed, hnamed', hcore⟩
  · rw [hnamed, hnamed']
    exact Agree.pure h
  · rw [hnamed, hnamed']
    have hrank : t.status.rank < TransferStatus.rank .broadcasted := by
      by_contra hle
      apply hbefore
      intro t'' ht''
      rw [hnamed, Option.some.injEq] at ht''
      rw [← ht'']
      omega
    have hstatus : t'.status = t.status := (congrArg Transfer.status hcore).symm
    have hopen : t.status.isOpen ≠ false := by
      intro hclosed
      have hclosed := rank_of_closed hclosed
      omega
    have hother : t.status ≠ .broadcasted := by
      intro heq
      rw [heq] at hrank
      omega
    simp only [hstatus, hopen, hother, false_and, if_false]
    apply Agree.orRaise_bind
    intro stored _
    apply Agree.modifyDb_bind
    apply Agree.pure
    apply h.saveTransfer
    have hbroadcasted : ∀ t : Transfer, (t.broadcastedAt scope.now stored).core =
        { t.core with status := .broadcasted } := fun _ => rfl
    rw [hbroadcasted, hbroadcasted, hcore]

theorem settleTransfer_agree (h : Alike db db') (scope : Scope)
    (payload : Payload) :
    Agree (settleTransfer scope payload) (settleTransfer scope payload) db db'
      (fun _ => Alike) := by
  apply loaded_agree
  rcases h.named_cases payload with ⟨hnamed, hnamed'⟩ | ⟨t, t', hnamed, hnamed', hcore⟩
  · rw [hnamed, hnamed']
    exact Agree.pure h
  · rw [hnamed, hnamed']
    have hstatus : t'.status = t.status := (congrArg Transfer.status hcore).symm
    have huser : t'.fromUserId = t.fromUserId :=
      (congrArg Transfer.fromUserId hcore).symm
    have hasset : t'.asset = t.asset := (congrArg Transfer.asset hcore).symm
    have hamount : t'.amount = t.amount := (congrArg Transfer.amount hcore).symm
    have hpostings : settlementPostings t' = settlementPostings t :=
      (congrArg settlementPostings hcore).symm
    simp only [hstatus, huser, hasset, hamount, hpostings]
    split
    · exact Agree.pure h
    · split
      · exact Agree.pure h
      · apply Agree.bind (releaseHold_agree h _ _ _)
        intro _ db₁ db₁' h₁
        apply Agree.bind (postSorted_agree h₁ scope t.asset _)
        intro _ db₂ db₂' h₂
        apply mergedTxHash_agree
        intro txHash txHash'
        apply Agree.modifyDb_bind
        apply Agree.pure
        apply h₂.saveTransfer
        have hconfirmed : ∀ (t : Transfer) (txHash : Option String),
            (t.confirmedAt scope.now txHash).core =
              { t.core with status := .confirmed, settledAt := some scope.now } :=
          fun _ _ => rfl
        rw [hconfirmed, hconfirmed, hcore]

theorem failTransfer_agree (h : Alike db db') (scope : Scope)
    (payload : Payload) :
    Agree (failTransfer scope payload) (failTransfer scope payload) db db'
      (fun _ => Alike) := by
  apply loaded_agree
  rcases h.named_cases payload with ⟨hnamed, hnamed'⟩ | ⟨t, t', hnamed, hnamed', hcore⟩
  · rw [hnamed, hnamed']
    exact Agree.pure h
  · rw [hnamed, hnamed']
    have hstatus : t'.status = t.status := (congrArg Transfer.status hcore).symm
    have hundo : undoTransfer scope t' = undoTransfer scope t :=
      (congrArg (undoTransfer scope) hcore).symm
    simp only [hstatus, hundo]
    split
    · exact Agree.pure h
    · have hundo : Agree (undoTransfer scope t) (undoTransfer scope t) db db'
          (fun _ => Alike) := by
        unfold undoTransfer
        split
        · apply Agree.bind (postSorted_agree h scope t.asset _)
          exact fun _ _ _ h₁ => Agree.pure h₁
        · exact releaseHold_agree h _ _ _
      apply Agree.bind hundo
      intro _ db₁ db₁' h₁
      apply Agree.orRaise_bind
      intro failureCode _
      apply Agree.orRaise_bind
      intro failureReason _
      apply mergedTxHash_agree
      intro txHash txHash'
      apply Agree.modifyDb_bind
      apply Agree.pure
      apply h₁.saveTransfer
      have hfailed : ∀ (t : Transfer) (txHash : Option String),
          (t.failedAt scope.now failureCode failureReason txHash).core =
            { t.core with
              status := .failed, failureCode
              failureReason := some failureReason } :=
        fun _ _ => rfl
      rw [hfailed, hfailed, hcore]

end Agree

/-! ## Absorbed events -/

/-- The wallet a deposit is paid to, if the database has it. -/
def Db.walletAt (db : Db) (payload : Payload) : Option WalletRow :=
  match payload.item "to_address" with
  | .error _ => none
  | .ok address =>
    match bindText address with
    | .ok (some text) => db.wallets.rows.find? (·.address = text)
    | _ => none

/-- The ledger has the entry a deposit event would write, and its account has
a balance row. -/
def Db.Entered (db : Db) (payload : Payload) (userId : Int)
    (entryType : EntryType) (hashKey : String) : Prop :=
  ∃ asset text reference stored, payload.item "asset" = .ok asset ∧
    assetText asset = .ok text ∧
    depositReference payload hashKey = .ok reference ∧
    varchar 200 reference = .ok stored ∧
    (userId, entryType, ReferenceType.deposit, stored.val) ∈ db.entryKeys ∧
    db.hasRow (userId, text)

/-- Handling the event once more has no effect. -/
def Absorbed (db : Db) (eventType : EventType) (payload : Payload) : Prop :=
  match eventType with
  | .depositConfirmed => ∀ wallet, db.walletAt payload = some wallet →
      db.Entered payload wallet.userId .deposit "block_hash"
  | .depositReorged => (payload.getD "was_confirmed" .null).truthy = true →
      ∀ wallet, db.walletAt payload = some wallet →
      db.Entered payload wallet.userId .reversal "orphaned_block_hash"
  | .txBroadcasted => db.Reached payload .broadcasted
  | .txConfirmed => db.Reached payload .confirmed
  | .txFailed => db.Reached payload .failed
  | .depositDetected | .transferRequested | .unknown _ => True

theorem walletByAddress_spec {payload : Payload} {address : Json}
    (hitem : payload.item "to_address" = .ok address) (db : Db) :
    Ensures (walletByAddress address) db
      (fun wallet db' => db' = db ∧ wallet = db.walletAt payload)
      (fun _ => True) := by
  unfold walletByAddress
  apply Ensures.orRaise_bind ?_ (fun _ _ => trivial)
  intro bound hbound
  cases bound with
  | none =>
      simp only [Db.walletAt, hitem, hbound]
      exact Ensures.pure ⟨rfl, rfl⟩
  | some text =>
      simp only [Db.walletAt, hitem, hbound]
      exact Ensures.query ⟨rfl, rfl⟩

theorem Db.hasRow_assetFits {db : Db} {userId : Int} {asset : String}
    (h : db.hasRow (userId, asset)) : asset.length ≤ 16 := by
  obtain ⟨b, hfind⟩ := h
  have hkey : b.account = (userId, asset) := Table.key_of_find? hfind
  have hasset : b.asset = asset := congrArg Prod.snd hkey
  rw [← hasset]
  exact b.assetFits

theorem lockBalance_existing {db : Db} {userId : Int} {asset : String}
    (hrow : db.hasRow (userId, asset)) :
    Ensures (lockBalance userId asset) db (fun _ db' => db' = db)
      (fun _ => True) := by
  have hfits := Db.hasRow_assetFits hrow
  obtain ⟨b, hfind⟩ := hrow
  have hensure : Ensures (ensureBalance userId asset) db (fun _ db' => db' = db)
      (fun _ => True) := by
    unfold ensureBalance
    apply Ensures.orRaise_bind ?_ (fun _ _ => trivial)
    intro stored hstored
    apply Ensures.query_bind
    rw [varchar_eq hfits hstored, hfind]
    exact Ensures.pure rfl
  unfold lockBalance
  apply Ensures.bind hensure
  rintro _ _ rfl
  apply Ensures.query_bind
  rw [hfind]
  apply Ensures.lockRow_bind
  exact Ensures.pure rfl

theorem EntryOf.key_eq {scope : Scope} {asset : String} {posting : Posting}
    {e : LedgerEntry} {stored : Varchar 200} (h : EntryOf scope asset posting e)
    (hstored : varchar 200 posting.referenceId = .ok stored) :
    e.key = (posting.userId, posting.entryType, posting.referenceType, stored.val) := by
  obtain ⟨stored', hstored', hreference⟩ := h.referenceId
  rw [hstored, Except.ok.injEq] at hstored'
  rw [LedgerEntry.key, h.userId, h.entryType, h.referenceType, hreference, hstored']

/-- An entry which is there already is not written again. -/
theorem postEntry_absorbed {db : Db} {asset : String} {posting : Posting}
    {stored : Varchar 200} (hrow : db.hasRow (posting.userId, asset))
    (hstored : varchar 200 posting.referenceId = .ok stored)
    (htaken : (posting.userId, posting.entryType, posting.referenceType,
      stored.val) ∈ db.entryKeys) (scope : Scope) :
    Ensures (postEntry scope asset posting) db (fun _ db' => db' = db)
      (fun _ => True) := by
  unfold postEntry
  apply Ensures.bind (lockBalance_existing hrow)
  rintro _ _ rfl
  apply Ensures.bind ((insertEntry_ensures _ scope
    (Db.hasRow_assetFits hrow) posting).mono (fun _ _ h => h) (fun _ _ => trivial))
  rintro inserted db₁ ⟨e, hentry, ⟨rfl, rfl, _⟩ | ⟨_, ledger, hinsert, _⟩⟩
  · exact Ensures.pure rfl
  · have hfree := Table.insert?_free hinsert
    rw [← hentry.key_eq hstored, mem_entryKeys_iff, hfree] at htaken
    cases htaken

theorem postDeposit_absorbed {db : Db} {payload : Payload} {posting : Posting}
    {hashKey : String} {asset : Json}
    (hentered : db.Entered payload posting.userId posting.entryType hashKey)
    (hasset : payload.item "asset" = .ok asset)
    (htype : posting.referenceType = .deposit)
    (hreference : depositReference payload hashKey = .ok posting.referenceId)
    (scope : Scope) :
    Ensures (postDeposit scope asset posting) db (fun _ db' => db' = db)
      (fun _ => True) := by
  obtain ⟨asset', text, reference, stored, hasset', htext, hreference', hstored,
    htaken, hrow⟩ := hentered
  rw [hasset, Except.ok.injEq] at hasset'
  rw [hreference, Except.ok.injEq] at hreference'
  rw [← hasset'] at htext
  rw [← hreference'] at hstored
  rw [← htype] at htaken
  unfold postDeposit
  rw [htext]
  apply Ensures.orRaise_bind ?_ (fun _ _ => trivial)
  rintro _ ⟨rfl⟩
  have hposted : Ensures (postEntries scope text [posting]) db
      (fun _ db' => db' = db) (fun _ => True) := by
    apply Ensures.bind (postEntry_absorbed hrow hstored htaken scope)
    rintro _ _ rfl
    exact Ensures.pure rfl
  apply Ensures.bind hposted
  rintro _ _ rfl
  exact Ensures.pure rfl

/-- What a deposit event leaves behind when it returns. -/
theorem postDeposit_entered (db : Db) {payload : Payload} {posting : Posting}
    {hashKey : String} {asset : Json} (hasset : payload.item "asset" = .ok asset)
    (htype : posting.referenceType = .deposit)
    (hreference : depositReference payload hashKey = .ok posting.referenceId)
    (scope : Scope) :
    Ensures (postDeposit scope asset posting) db
      (fun _ db' => db'.Entered payload posting.userId posting.entryType hashKey ∧
        db'.wallets = db.wallets)
      (fun _ => True) := by
  unfold postDeposit
  apply Ensures.orRaise_bind ?_ (fun _ _ => trivial)
  intro text htext
  have hposted : Ensures (postEntries scope text [posting]) db
      (fun _ db' => db'.Entered payload posting.userId posting.entryType hashKey ∧
        db'.wallets = db.wallets) (fun _ => True) := by
    apply Ensures.bind ((postEntry_ensures db scope text posting).mono
      (fun _ _ h => h) (fun _ _ => trivial))
    rintro written db₁ ⟨e, hentry, hrow, hcases⟩
    obtain ⟨stored, hstored, _⟩ := hentry.referenceId
    have hkey := hentry.key_eq hstored
    rw [htype] at hkey
    have hentered : (posting.userId, posting.entryType, ReferenceType.deposit,
        stored.val) ∈ db₁.entryKeys ∧ db₁.wallets = db.wallets := by
      rw [← hkey]
      rcases hcases with ⟨_, htaken, hmoved⟩ | ⟨_, _, hmoved⟩
      · exact ⟨hmoved.keys_mono _ ((mem_entryKeys_iff db e).mpr htaken),
          hmoved.frame.wallets⟩
      · rw [hmoved.entryKeys]
        exact ⟨by simp, hmoved.frame.wallets⟩
    exact Ensures.pure ⟨⟨asset, text, posting.referenceId, stored, hasset, htext,
      hreference, hstored, hentered.1, hrow⟩, hentered.2⟩
  apply Ensures.bind hposted
  exact fun _ _ h => Ensures.pure h

/-! ### Deposits -/

theorem Db.walletAt_congr {db db' : Db} (h : db'.wallets = db.wallets)
    (payload : Payload) : db'.walletAt payload = db.walletAt payload := by
  unfold Db.walletAt
  rw [h]

section Deposit

variable {db : Db} {payload : Payload}

theorem creditDeposit_idle (h : Absorbed db .depositConfirmed payload)
    (scope : Scope) :
    Ensures (creditDeposit scope payload) db (fun _ db' => db' = db)
      (fun _ => True) := by
  unfold creditDeposit
  apply Ensures.orRaise_bind ?_ (fun _ _ => trivial)
  intro address haddress
  apply Ensures.bind (walletByAddress_spec haddress db)
  rintro _ _ ⟨rfl, rfl⟩
  cases hwallet : Db.walletAt _ payload with
  | none => exact Ensures.pure rfl
  | some wallet =>
      apply Ensures.orRaise_bind ?_ (fun _ _ => trivial)
      intro amountUnits _
      apply Ensures.orRaise_bind ?_ (fun _ _ => trivial)
      intro amount _
      apply Ensures.orRaise_bind ?_ (fun _ _ => trivial)
      intro asset hasset
      apply Ensures.orRaise_bind ?_ (fun _ _ => trivial)
      intro reference hreference
      have hreference : depositReference payload "block_hash" = .ok reference :=
        hreference
      exact postDeposit_absorbed (h wallet hwallet) hasset rfl hreference scope

theorem creditDeposit_absorbs (db : Db) (payload : Payload) (scope : Scope) :
    Ensures (creditDeposit scope payload) db
      (fun _ db' => Absorbed db' .depositConfirmed payload) (fun _ => True) := by
  unfold creditDeposit
  apply Ensures.orRaise_bind ?_ (fun _ _ => trivial)
  intro address haddress
  apply Ensures.bind (walletByAddress_spec haddress db)
  rintro _ _ ⟨rfl, rfl⟩
  cases hwallet : Db.walletAt _ payload with
  | none =>
      apply Ensures.pure
      intro wallet hsome
      rw [hwallet] at hsome
      cases hsome
  | some wallet =>
      apply Ensures.orRaise_bind ?_ (fun _ _ => trivial)
      intro amountUnits _
      apply Ensures.orRaise_bind ?_ (fun _ _ => trivial)
      intro amount _
      apply Ensures.orRaise_bind ?_ (fun _ _ => trivial)
      intro asset hasset
      apply Ensures.orRaise_bind ?_ (fun _ _ => trivial)
      intro reference hreference
      have hreference : depositReference payload "block_hash" = .ok reference :=
        hreference
      apply (postDeposit_entered _ hasset rfl hreference scope).mono ?_
        (fun _ _ => trivial)
      rintro _ db' ⟨hentered, hwallets⟩ wallet' hsome
      rw [Db.walletAt_congr hwallets, hwallet, Option.some.injEq] at hsome
      exact hsome ▸ hentered

theorem reverseDeposit_idle (h : Absorbed db .depositReorged payload)
    (scope : Scope) :
    Ensures (reverseDeposit scope payload) db (fun _ db' => db' = db)
      (fun _ => True) := by
  unfold reverseDeposit
  split
  · exact Ensures.pure rfl
  next hconfirmed =>
    have hconfirmed : (payload.getD "was_confirmed" .null).truthy = true := by
      simpa using hconfirmed
    apply Ensures.orRaise_bind ?_ (fun _ _ => trivial)
    intro address haddress
    apply Ensures.bind (walletByAddress_spec haddress db)
    rintro _ _ ⟨rfl, rfl⟩
    cases hwallet : Db.walletAt _ payload with
    | none => exact Ensures.pure rfl
    | some wallet =>
        apply Ensures.orRaise_bind ?_ (fun _ _ => trivial)
        intro amountUnits _
        apply Ensures.orRaise_bind ?_ (fun _ _ => trivial)
        intro amount _
        apply Ensures.orRaise_bind ?_ (fun _ _ => trivial)
        intro reference hreference
        have hreference : depositReference payload "orphaned_block_hash" =
            .ok reference := hreference
        apply Ensures.orRaise_bind ?_ (fun _ _ => trivial)
        intro asset hasset
        exact postDeposit_absorbed (h hconfirmed wallet hwallet) hasset rfl
          hreference scope

theorem reverseDeposit_absorbs (db : Db) (payload : Payload) (scope : Scope) :
    Ensures (reverseDeposit scope payload) db
      (fun _ db' => Absorbed db' .depositReorged payload) (fun _ => True) := by
  unfold reverseDeposit
  split
  next hunconfirmed =>
    apply Ensures.pure
    intro hconfirmed
    rw [hunconfirmed] at hconfirmed
    cases hconfirmed
  · apply Ensures.orRaise_bind ?_ (fun _ _ => trivial)
    intro address haddress
    apply Ensures.bind (walletByAddress_spec haddress db)
    rintro _ _ ⟨rfl, rfl⟩
    cases hwallet : Db.walletAt _ payload with
    | none =>
        apply Ensures.pure
        intro _ wallet hsome
        rw [hwallet] at hsome
        cases hsome
    | some wallet =>
        apply Ensures.orRaise_bind ?_ (fun _ _ => trivial)
        intro amountUnits _
        apply Ensures.orRaise_bind ?_ (fun _ _ => trivial)
        intro amount _
        apply Ensures.orRaise_bind ?_ (fun _ _ => trivial)
        intro reference hreference
        have hreference : depositReference payload "orphaned_block_hash" =
            .ok reference := hreference
        apply Ensures.orRaise_bind ?_ (fun _ _ => trivial)
        intro asset hasset
        apply (postDeposit_entered _ hasset rfl hreference scope).mono ?_
          (fun _ _ => trivial)
        rintro _ db' ⟨hentered, hwallets⟩ _ wallet' hsome
        rw [Db.walletAt_congr hwallets, hwallet, Option.some.injEq] at hsome
        exact hsome ▸ hentered

end Deposit

/-! ### Transfers -/

section Transfer

variable {db db' : Db} {payload : Payload} {t t' : Transfer}

theorem Transition.reached {entries : List LedgerEntry} {hold : Account → Int}
    (h : Transition db db' t t' entries hold) (hnamed : db.named payload = some t) :
    db'.Reached payload t'.status := by
  obtain ⟨mid, hmoved, rfl⟩ := h.change
  have hfind : (mid.transfers.replace t').find? t'.id = some t' := by
    apply Table.find?_replace_self
    rw [hmoved.frame.transfers, h.terms.id, h.find]
  intro t'' hnamed''
  simp only [Db.named, namedId_of_named hnamed, Option.bind_some] at hnamed''
  rw [h.terms.id] at hfind
  rw [hfind, Option.some.injEq] at hnamed''
  rw [hnamed'']

theorem markBroadcasted_idle (h : db.Reached payload .broadcasted) (scope : Scope) :
    Ensures (markBroadcasted scope payload) db (fun _ => Alike db)
      (fun _ => True) := by
  unfold markBroadcasted
  apply Ensures.orRaise_bind ?_ (fun _ _ => trivial)
  intro transferId htransferId
  apply Ensures.bind ((loadForUpdate_ensures db htransferId).mono
    (fun _ _ h => h) (fun _ _ => trivial))
  rintro loaded db' ⟨hdb, rfl⟩
  obtain rfl := hdb.symm
  cases hnamed : db.named payload with
  | none => exact Ensures.pure (Alike.refl db)
  | some t =>
      have hrank := h t hnamed
      simp only
      split
      · exact Ensures.pure (Alike.refl db)
      next hopen =>
        split
        · exact Ensures.pure (Alike.refl db)
        · apply Ensures.orRaise_bind ?_ (fun _ _ => trivial)
          intro stored _
          apply Ensures.modifyDb_bind
          apply Ensures.pure
          have hstatus : t.status = .broadcasted := by
            cases hstatus : t.status <;>
              simp_all [TransferStatus.rank, TransferStatus.isOpen]
          have hcore : t.core = (t.broadcastedAt scope.now stored).core := by
            have hbroadcasted : (t.broadcastedAt scope.now stored).core =
                { t.core with status := .broadcasted } := rfl
            rw [hbroadcasted, ← hstatus]
            rfl
          have halike := (Alike.refl db).saveTransfer hcore
          rw [db.transfers.replace_found (Db.find?_of_named hnamed)] at halike
          exact halike

/-- An open transfer has not got to a final status. -/
theorem not_reached_of_open {status : TransferStatus} (hnamed : db.named payload = some t)
    (hopen : t.status.isOpen = true) (hclosed : status.isOpen = false) :
    ¬db.Reached payload status := by
  intro hreached
  have hrank := hreached t hnamed
  cases hstatus : t.status <;> cases status <;>
    simp_all [TransferStatus.rank, TransferStatus.isOpen]

theorem settleTransfer_idle (hsound : Sound db) (h : db.Reached payload .confirmed)
    (scope : Scope) :
    Ensures (settleTransfer scope payload) db (fun _ db' => db' = db)
      (fun _ => True) := by
  apply (settleTransfer_ensures hsound.holdsCovered scope payload).mono ?_
    (fun _ _ => trivial)
  rintro _ db' (⟨rfl, _⟩ | ⟨t, t', _, hnamed, hopen, _⟩)
  · rfl
  · exact absurd h (not_reached_of_open hnamed hopen rfl)

theorem failTransfer_idle (hsound : Sound db) (h : db.Reached payload .failed)
    (scope : Scope) :
    Ensures (failTransfer scope payload) db (fun _ db' => db' = db)
      (fun _ => True) := by
  apply (failTransfer_ensures hsound.holdsCovered scope payload).mono ?_
    (fun _ _ => trivial)
  rintro _ db' (⟨rfl, _⟩ | ⟨t, t', hnamed, _, hcases⟩)
  · rfl
  · have hrank := h t hnamed
    rcases hcases with ⟨hopen, _⟩ | ⟨hconfirmed, _⟩
    · exact absurd h (not_reached_of_open hnamed hopen rfl)
    · rw [hconfirmed] at hrank
      simp [TransferStatus.rank] at hrank

end Transfer

/-! ### All events -/

theorem handle_idle {db : Db} (hsound : Sound db) {eventType : EventType}
    {payload : Payload} (h : Absorbed db eventType payload) (scope : Scope) :
    Ensures (handle scope eventType payload) db (fun _ => Alike db)
      (fun _ => True) := by
  have hsame : ∀ {α : Type} {tx : WalletTx α},
      Ensures tx db (fun _ db' => db' = db) (fun _ => True) →
      Ensures tx db (fun _ => Alike db) (fun _ => True) := by
    intro α tx htx
    apply htx.mono ?_ (fun _ h => h)
    rintro _ _ rfl
    exact Alike.refl _
  cases eventType with
  | depositDetected => exact Ensures.pure (Alike.refl db)
  | depositConfirmed => exact hsame (creditDeposit_idle h scope)
  | depositReorged => exact hsame (reverseDeposit_idle h scope)
  | txBroadcasted => exact markBroadcasted_idle h scope
  | txConfirmed => exact hsame (settleTransfer_idle hsound h scope)
  | txFailed => exact hsame (failTransfer_idle hsound h scope)
  | transferRequested => exact Ensures.pure (Alike.refl db)
  | unknown name => exact Ensures.pure (Alike.refl db)

theorem handle_absorbs {db : Db} (hsound : Sound db) (eventType : EventType)
    (payload : Payload) (scope : Scope) :
    Ensures (handle scope eventType payload) db
      (fun _ db' => Absorbed db' eventType payload) (fun _ => True) := by
  cases eventType with
  | depositDetected => exact Ensures.pure trivial
  | depositConfirmed => exact creditDeposit_absorbs db payload scope
  | depositReorged => exact reverseDeposit_absorbs db payload scope
  | txBroadcasted =>
      apply (markBroadcasted_ensures db scope payload).mono ?_ (fun _ _ => trivial)
      rintro _ db' (⟨rfl, hreached⟩ | ⟨t, t', hnamed, _, hstatus, htransition⟩)
      · exact hreached
      · have hreached := htransition.reached hnamed
        rwa [hstatus] at hreached
  | txConfirmed =>
      apply (settleTransfer_ensures hsound.holdsCovered scope payload).mono ?_
        (fun _ _ => trivial)
      rintro _ db' (⟨rfl, hreached⟩ | ⟨t, t', _, hnamed, _, hstatus, _, htransition⟩)
      · exact hreached
      · have hreached := htransition.reached hnamed
        rwa [hstatus] at hreached
  | txFailed =>
      apply (failTransfer_ensures hsound.holdsCovered scope payload).mono ?_
        (fun _ _ => trivial)
      rintro _ db' (⟨rfl, hreached⟩ | ⟨t, t', hnamed, hstatus, hcases⟩)
      · exact hreached
      · have hreached : db'.Reached payload t'.status := by
          rcases hcases with ⟨_, htransition⟩ | ⟨_, _, _, htransition⟩
          · exact htransition.reached hnamed
          · exact htransition.reached hnamed
        rwa [hstatus] at hreached
  | transferRequested => exact Ensures.pure trivial
  | unknown name => exact Ensures.pure trivial

theorem handle_agree {db db' : Db} (h : Alike db db') {eventType : EventType}
    {payload : Payload} (hfresh : ¬Absorbed db eventType payload) (scope : Scope) :
    Agree (handle scope eventType payload) (handle scope eventType payload) db db'
      (fun _ => Alike) := by
  cases eventType with
  | depositDetected => exact Agree.pure h
  | depositConfirmed => exact creditDeposit_agree h scope payload
  | depositReorged => exact reverseDeposit_agree h scope payload
  | txBroadcasted => exact markBroadcasted_agree h scope hfresh
  | txConfirmed => exact settleTransfer_agree h scope payload
  | txFailed => exact failTransfer_agree h scope payload
  | transferRequested => exact Agree.pure h
  | unknown name => exact Agree.pure h

/-! ## Absorbed events stay absorbed -/

theorem Db.Entered.mono {db db' : Db} {payload : Payload} {userId : Int}
    {entryType : EntryType} {hashKey : String}
    (hkeys : ∀ k ∈ db.entryKeys, k ∈ db'.entryKeys)
    (hrows : ∀ k, db.hasRow k → db'.hasRow k)
    (h : db.Entered payload userId entryType hashKey) :
    db'.Entered payload userId entryType hashKey := by
  obtain ⟨asset, text, reference, stored, hasset, htext, hreference, hstored,
    htaken, hrow⟩ := h
  exact ⟨asset, text, reference, stored, hasset, htext, hreference, hstored,
    hkeys _ htaken, hrows _ hrow⟩

theorem Evolved.named_back {db db' : Db} (h : Evolved db db') {payload : Payload}
    {t' : Transfer} (hnamed : db'.named payload = some t') :
    ∃ t, db.named payload = some t ∧ Forward t t' := by
  have hmem := Table.mem_of_find? (Db.find?_of_named hnamed)
  obtain ⟨i, hi', rfl⟩ := List.getElem_of_mem hmem
  have hi : i < db.transfers.rows.length := h.transfers.length_eq ▸ hi'
  have hforward := h.transfers.get hi hi'
  refine ⟨db.transfers.rows[i], ?_, hforward⟩
  have hid := hforward.terms.id
  simp only [List.get_eq_getElem] at hid
  have hfind := db.transfers.find?_of_mem (List.getElem_mem hi)
  simp only [Db.named, namedId_of_named hnamed, Option.bind_some]
  rw [hid]
  exact hfind

theorem Db.Reached.evolved {db db' : Db} {payload : Payload}
    {status : TransferStatus} (h : db.Reached payload status)
    (hevolved : Evolved db db') : db'.Reached payload status := by
  intro t' hnamed'
  obtain ⟨t, hnamed, hforward⟩ := hevolved.named_back hnamed'
  exact le_trans (h t hnamed) hforward.rank

theorem Absorbed.handled {db db' : Db} {eventType : EventType} {payload : Payload}
    (h : Absorbed db eventType payload) (hevolved : Evolved db db')
    (hwallets : db'.wallets = db.wallets) : Absorbed db' eventType payload := by
  have hwalletAt := Db.walletAt_congr hwallets payload
  cases eventType with
  | depositConfirmed =>
      intro wallet hwallet
      rw [hwalletAt] at hwallet
      exact (h wallet hwallet).mono hevolved.keys hevolved.rows
  | depositReorged =>
      intro hconfirmed wallet hwallet
      rw [hwalletAt] at hwallet
      exact (h hconfirmed wallet hwallet).mono hevolved.keys hevolved.rows
  | txBroadcasted => exact Db.Reached.evolved h hevolved
  | txConfirmed => exact Db.Reached.evolved h hevolved
  | txFailed => exact Db.Reached.evolved h hevolved
  | depositDetected | transferRequested | unknown name => trivial

theorem Alike.reached {db db' : Db} (h : Alike db db') {payload : Payload}
    {status : TransferStatus} (hreached : db.Reached payload status) :
    db'.Reached payload status := by
  intro t' hnamed'
  rcases h.named_cases payload with ⟨_, hnone⟩ | ⟨t, t'', hnamed, hsome, hcore⟩
  · rw [hnone] at hnamed'
    cases hnamed'
  · rw [hsome, Option.some.injEq] at hnamed'
    have hstatus : t.core.status = t''.core.status := congrArg Transfer.status hcore
    rw [← hnamed']
    exact le_of_le_of_eq (hreached t hnamed) (congrArg TransferStatus.rank hstatus)

theorem Alike.absorbed {db db' : Db} (h : Alike db db') {eventType : EventType}
    {payload : Payload} (habsorbed : Absorbed db eventType payload) :
    Absorbed db' eventType payload := by
  have hwalletAt := Db.walletAt_congr h.wallets.symm payload
  have hentered : ∀ {userId entryType hashKey},
      db.Entered payload userId entryType hashKey →
      db'.Entered payload userId entryType hashKey := by
    intro userId entryType hashKey hentered
    apply hentered.mono
    · intro k hk
      rwa [Db.entryKeys, ← h.ledger]
    · intro k hk
      rwa [Db.hasRow, ← h.balances]
  cases eventType with
  | depositConfirmed =>
      intro wallet hwallet
      rw [hwalletAt] at hwallet
      exact hentered (habsorbed wallet hwallet)
  | depositReorged =>
      intro hconfirmed wallet hwallet
      rw [hwalletAt] at hwallet
      exact hentered (habsorbed hconfirmed wallet hwallet)
  | txBroadcasted => exact h.reached habsorbed
  | txConfirmed => exact h.reached habsorbed
  | txFailed => exact h.reached habsorbed
  | depositDetected | transferRequested | unknown name => trivial

/-! ### Equal payloads -/

theorem named_same {payload payload' : Payload} (h : payload.Same payload')
    (db : Db) : db.named payload = db.named payload' := by
  unfold Db.named namedId
  rw [h.item]

theorem Db.Entered.same {payload payload' : Payload}
    (h : payload.Same payload') {db : Db} {userId : Int} {entryType : EntryType}
    {hashKey : String} (hentered : db.Entered payload userId entryType hashKey) :
    db.Entered payload' userId entryType hashKey := by
  unfold Db.Entered depositReference at hentered ⊢
  rw [h.item, h.item, h.item, h.item, h.getD] at hentered
  exact hentered

theorem Absorbed.same {db : Db} {eventType : EventType} {payload payload' : Payload}
    (h : Absorbed db eventType payload) (hsame : payload.Same payload') :
    Absorbed db eventType payload' := by
  have hwalletAt : db.walletAt payload' = db.walletAt payload := by
    unfold Db.walletAt
    rw [hsame.item]
  have hreached : ∀ {status}, db.Reached payload status →
      db.Reached payload' status := by
    intro status hreached t hnamed
    rw [← named_same hsame] at hnamed
    exact hreached t hnamed
  cases eventType with
  | depositConfirmed =>
      intro wallet hwallet
      rw [hwalletAt] at hwallet
      exact Db.Entered.same hsame (h wallet hwallet)
  | depositReorged =>
      intro hconfirmed wallet hwallet
      rw [hwalletAt] at hwallet
      rw [← hsame.getD] at hconfirmed
      exact Db.Entered.same hsame (h hconfirmed wallet hwallet)
  | txBroadcasted => exact hreached h
  | txConfirmed => exact hreached h
  | txFailed => exact hreached h
  | depositDetected | transferRequested | unknown name => trivial

/-! ## One delivery -/

theorem alike_processedEvents (db : Db)
    (processedEvents : Table (String × EventId) ProcessedEvent
      ProcessedEvent.primaryKey) :
    Alike db { db with processedEvents } := ⟨rfl, rfl, rfl, rfl, rfl⟩

theorem recorded_of_insert {db db' : Db} {event : ProcessedEvent}
    {processedEvents : Table (String × EventId) ProcessedEvent
      ProcessedEvent.primaryKey}
    (hinsert : db.processedEvents.insert? event = some processedEvents)
    (hdb' : db'.processedEvents = processedEvents) {id : EventId}
    (h : db'.Recorded id) : db.Recorded id ∨ id = event.eventId := by
  rw [Db.Recorded, hdb', Table.find?_insert? hinsert] at h
  split at h
  next hkey => exact Or.inr (congrArg Prod.snd hkey)
  next => exact Or.inl h

/-- What a delivery which returns leaves behind. -/
structure Delivered (db : Db) (envelope : Envelope) (db' : Db) : Prop where
  recorded : ∀ id, db'.Recorded id → db.Recorded id ∨ id = envelope.eventId
  absorbs : ¬db.Recorded envelope.eventId →
    Absorbed db' envelope.eventType envelope.payload
  evolved : Evolved db db'
  wallets : db'.wallets = db.wallets

theorem dispatch_delivers {db : Db} (h : Sound db) (scope : Scope)
    (envelope : Envelope) :
    Ensures (dispatch scope envelope) db (fun _ => Delivered db envelope)
      (fun _ => True) := by
  unfold dispatch
  apply Ensures.bind ((claimEvent_ensures db envelope).mono (fun _ _ h => h)
    (fun _ _ => trivial))
  rintro claimed db₁ (⟨rfl, rfl, hrecorded⟩ | ⟨rfl, processedEvents, hinsert, rfl⟩)
  · apply Ensures.pure
    have hrefl := Handled.refl db₁
    exact ⟨fun _ h => Or.inl h, fun h => absurd hrecorded h, hrefl.evolved, rfl⟩
  · have h₁ : Sound { db with processedEvents } := h.congr rfl rfl rfl
    apply ((handle_handled h₁ (deliveryScope scope envelope) envelope.eventType
      envelope.payload).and (handle_absorbs h₁ envelope.eventType envelope.payload
        (deliveryScope scope envelope))).mono ?_ (fun _ _ => trivial)
    rintro _ db' ⟨hhandled, habsorbed⟩
    have hevolved := hhandled.evolved
    exact ⟨fun _ h => recorded_of_insert hinsert hhandled.processedEvents h,
      fun _ => habsorbed,
      ⟨hevolved.transfers, hevolved.idempotencyKeys, hevolved.ledger, hevolved.rows⟩,
      hhandled.wallets⟩

theorem dispatch_idle {db : Db} (h : Sound db) (scope : Scope) {envelope : Envelope}
    (habsorbed : Absorbed db envelope.eventType envelope.payload) :
    Ensures (dispatch scope envelope) db (fun _ => Alike db) (fun _ => True) := by
  unfold dispatch
  apply Ensures.bind ((claimEvent_ensures db envelope).mono (fun _ _ h => h)
    (fun _ _ => trivial))
  rintro claimed db₁ (⟨rfl, rfl, _⟩ | ⟨rfl, processedEvents, _, rfl⟩)
  · exact Ensures.pure (Alike.refl _)
  · have h₁ : Sound { db with processedEvents } := h.congr rfl rfl rfl
    have halike := alike_processedEvents db processedEvents
    apply (handle_idle h₁ (halike.absorbed habsorbed)
      (deliveryScope scope envelope)).mono ?_ (fun _ h => h)
    exact fun _ _ hidle => halike.trans hidle

theorem claimEvent_agree {db db' : Db} (h : Alike db db') {envelope : Envelope}
    (hfree : ¬db.Recorded envelope.eventId) (hfree' : ¬db'.Recorded envelope.eventId) :
    Agree (claimEvent envelope) (claimEvent envelope) db db'
      (fun claimed db₁ db₁' => claimed = true ∧ Alike db₁ db₁' ∧ Alike db db₁) := by
  have hinsert : ∀ {db : Db}, ¬db.Recorded envelope.eventId →
      ∃ processedEvents, db.processedEvents.insert?
        ⟨consumerName, envelope.eventId, envelope.eventType⟩ = some processedEvents := by
    intro db hfree
    apply Table.exists_insert?
    exact Option.not_isSome_iff_eq_none.mp hfree
  obtain ⟨processedEvents, hinsert₁⟩ := hinsert hfree
  obtain ⟨processedEvents', hinsert₁'⟩ := hinsert hfree'
  unfold claimEvent
  cases hid : envelope.eventId with
  | malformed text => exact Agree.throw _
  | uuid5 _ | uuid4 _ =>
      rw [hid] at hinsert₁ hinsert₁'
      apply Agree.orRaise_bind
      intro stored _
      apply Agree.query_bind
      rw [hinsert₁, hinsert₁']
      apply Agree.modifyDb_bind
      apply Agree.pure
      exact ⟨rfl, ⟨h.users, h.wallets, h.balances, h.ledger, h.transfers⟩,
        alike_processedEvents db processedEvents⟩

theorem dispatch_agree {db db' : Db} (h : Alike db db') (scope : Scope)
    {envelope : Envelope}
    (hfresh : ¬Absorbed db envelope.eventType envelope.payload)
    (hfree : ¬db.Recorded envelope.eventId) (hfree' : ¬db'.Recorded envelope.eventId) :
    Agree (dispatch scope envelope) (dispatch scope envelope) db db'
      (fun _ => Alike) := by
  unfold dispatch
  apply Agree.bind (claimEvent_agree h hfree hfree')
  rintro _ db₁ db₁' ⟨rfl, h₁, hclaimed⟩
  apply handle_agree h₁
  exact fun habsorbed => hfresh (hclaimed.symm.absorbed habsorbed)

/-! ## Sequences of deliveries -/

structure Delivery where
  scope : Scope
  envelope : Envelope

def Envelope.sameFact (envelope envelope' : Envelope) : Bool :=
  envelope.eventType = envelope'.eventType &&
    decide (envelope.payload.Same envelope'.payload)

def Delivery.step (d : Delivery) : Step := .dispatch d.scope d.envelope

def consumer (config : Config) : Redelivery.Consumer Db Delivery where
  step d db := step config d.step db
  returns d db := (commit (stepTx config d.step) db).1.isOk
  sameFact d d' := Envelope.sameFact d.envelope d'.envelope

/-- States of a run and of the run without its repeats: what is recorded in
either of them is absorbed. -/
structure Related (deliveries : List Delivery) (db db' : Db) : Prop where
  sound : Sound db
  sound' : Sound db'
  alike : Alike db db'
  recorded : ∀ d ∈ deliveries,
    db.Recorded d.envelope.eventId ∨ db'.Recorded d.envelope.eventId →
      Absorbed db d.envelope.eventType d.envelope.payload

section Consumer

variable {config : Config} {deliveries : List Delivery} {db db' : Db}

/-- A delivery returns and does what a handler does, or changes nothing. -/
theorem consumer_cases (h : Sound db) (config : Config) (d : Delivery) :
    ((consumer config).returns d db = true ∧
        Delivered db d.envelope ((consumer config).step d db)) ∨
      ((consumer config).returns d db = false ∧ (consumer config).step d db = db) := by
  have hdelivers : Ensures (stepTx config d.step) db
      (fun _ => Delivered db d.envelope) (fun _ => True) :=
    Ensures.discard (dispatch_delivers h d.scope d.envelope)
  cases hcommit : commit (stepTx config d.step) db with
  | mk result db₁ =>
      have hreturns : (consumer config).returns d db = result.isOk := by
        simp only [consumer, hcommit]
      have hstep : (consumer config).step d db = db₁ := by
        simp only [consumer, step, hcommit]
      rw [hreturns, hstep]
      cases result with
      | ok a => exact Or.inl ⟨rfl, hdelivers.commit_ok hcommit⟩
      | error e => exact Or.inr ⟨rfl, commit_error hcommit⟩

theorem consumer_idle (h : Sound db) (config : Config) {d : Delivery}
    (habsorbed : Absorbed db d.envelope.eventType d.envelope.payload) :
    Alike db ((consumer config).step d db) := by
  have hidle : Ensures (stepTx config d.step) db (fun _ => Alike db)
      (fun _ => True) := by
    apply Ensures.bind (dispatch_idle h d.scope habsorbed)
    exact fun _ _ h => Ensures.pure h
  exact commit_preserves (Alike.refl db) hidle

theorem consumer_stays (h : Sound db) (config : Config) (d : Delivery)
    {eventType : EventType} {payload : Payload}
    (habsorbed : Absorbed db eventType payload) :
    Absorbed ((consumer config).step d db) eventType payload := by
  rcases consumer_cases h config d with ⟨_, hdelivered⟩ | ⟨_, hstep⟩
  · exact habsorbed.handled hdelivered.evolved hdelivered.wallets
  · rw [hstep]
    exact habsorbed

theorem consumer_recorded (h : Sound db) {d : Delivery} {id : EventId}
    (hrecorded : ((consumer config).step d db).Recorded id) :
    db.Recorded id ∨ (id = d.envelope.eventId ∧ (consumer config).returns d db = true) := by
  rcases consumer_cases h config d with ⟨hreturns, hdelivered⟩ | ⟨_, hstep⟩
  · rcases hdelivered.recorded id hrecorded with hold | hnew
    · exact Or.inl hold
    · exact Or.inr ⟨hnew, hreturns⟩
  · rw [hstep] at hrecorded
    exact Or.inl hrecorded

theorem consumer_after (h : Related deliveries db db') {d : Delivery}
    (hd : d ∈ deliveries) (hreturns : (consumer config).returns d db = true) :
    Absorbed ((consumer config).step d db) d.envelope.eventType
      d.envelope.payload := by
  by_cases hrecorded : db.Recorded d.envelope.eventId
  · exact consumer_stays h.sound config d (h.recorded d hd (Or.inl hrecorded))
  · rcases consumer_cases h.sound config d with ⟨_, hdelivered⟩ | ⟨hraised, _⟩
    · exact hdelivered.absorbs hrecorded
    · rw [hraised] at hreturns
      cases hreturns

theorem Absorbed.sameFact {envelope envelope' : Envelope}
    (hsame : Envelope.sameFact envelope envelope' = true)
    (h : Absorbed db envelope.eventType envelope.payload) :
    Absorbed db envelope'.eventType envelope'.payload := by
  simp only [Envelope.sameFact, Bool.and_eq_true, decide_eq_true_eq] at hsame
  rw [← hsame.1]
  exact h.same hsame.2

/-- What is recorded after a delivery is absorbed, provided the delivery itself
is. -/
theorem Related.recorded_step (h : Related deliveries db db')
    (hids : ∀ d ∈ deliveries, ∀ d' ∈ deliveries,
      d.envelope.eventId = d'.envelope.eventId →
      Envelope.sameFact d.envelope d'.envelope = true)
    {d : Delivery} (hd : d ∈ deliveries)
    (hself : Absorbed ((consumer config).step d db) d.envelope.eventType
        d.envelope.payload ∨
      ((consumer config).returns d db = false ∧
        (consumer config).returns d db' = false))
    {d' : Delivery} (hd' : d' ∈ deliveries)
    (hrecorded : ((consumer config).step d db).Recorded d'.envelope.eventId ∨
      db'.Recorded d'.envelope.eventId ∨
      ((consumer config).step d db').Recorded d'.envelope.eventId) :
    Absorbed ((consumer config).step d db) d'.envelope.eventType
      d'.envelope.payload := by
  have hold : db.Recorded d'.envelope.eventId ∨ db'.Recorded d'.envelope.eventId →
      Absorbed ((consumer config).step d db) d'.envelope.eventType
        d'.envelope.payload :=
    fun hrecorded => consumer_stays h.sound config d (h.recorded d' hd' hrecorded)
  have hnew : d'.envelope.eventId = d.envelope.eventId →
      ((consumer config).returns d db = true ∨ (consumer config).returns d db' = true) →
      Absorbed ((consumer config).step d db) d'.envelope.eventType
        d'.envelope.payload := by
    intro hid hreturns
    rcases hself with habsorbed | ⟨hraised, hraised'⟩
    · exact habsorbed.sameFact (hids d hd d' hd' hid.symm)
    · rw [hraised, hraised'] at hreturns
      simp at hreturns
  rcases hrecorded with hrecorded | hrecorded | hrecorded
  · rcases consumer_recorded h.sound hrecorded with hbefore | ⟨hid, hreturns⟩
    · exact hold (Or.inl hbefore)
    · exact hnew hid (Or.inl hreturns)
  · exact hold (Or.inr hrecorded)
  · rcases consumer_recorded h.sound' hrecorded with hbefore | ⟨hid, hreturns⟩
    · exact hold (Or.inr hbefore)
    · exact hnew hid (Or.inr hreturns)

/-- Alike states accept or refuse a fresh delivery together. -/
theorem consumer_agree (h : Related deliveries db db') {d : Delivery}
    (hd : d ∈ deliveries)
    (hfresh : ¬Absorbed db d.envelope.eventType d.envelope.payload) :
    Alike ((consumer config).step d db) ((consumer config).step d db') ∧
      (consumer config).returns d db = (consumer config).returns d db' := by
  have hfree : ¬db.Recorded d.envelope.eventId :=
    fun hrecorded => hfresh (h.recorded d hd (Or.inl hrecorded))
  have hfree' : ¬db'.Recorded d.envelope.eventId :=
    fun hrecorded => hfresh (h.recorded d hd (Or.inr hrecorded))
  have hagree : Agree (stepTx config d.step) (stepTx config d.step) db db'
      (fun _ => Alike) := by
    apply Agree.bind (dispatch_agree h.alike d.scope hfresh hfree hfree')
    exact fun _ _ _ h => Agree.pure h
  simp only [consumer, step]
  rcases hagree.commit with ⟨a, db₁, db₁', hok, hok', halike⟩ | ⟨e, herror, herror'⟩
  · rw [hok, hok']
    exact ⟨halike, rfl⟩
  · rw [herror, herror']
    exact ⟨h.alike, rfl⟩

theorem consumer_absorbing (config : Config) {deliveries : List Delivery}
    (hids : ∀ d ∈ deliveries, ∀ d' ∈ deliveries,
      d.envelope.eventId = d'.envelope.eventId →
      Envelope.sameFact d.envelope d'.envelope = true) :
    (consumer config).Absorbing (Related deliveries)
      (fun db d => Absorbed db d.envelope.eventType d.envelope.payload)
      (· ∈ deliveries) where
  idle := by
    intro db db' d hd h habsorbed
    have hidle := consumer_idle h.sound config habsorbed
    have hidle' := consumer_idle h.sound' config (h.alike.absorbed habsorbed)
    have hself := consumer_stays h.sound config d habsorbed
    refine ⟨⟨step_sound h.sound config _, h.sound', hidle.symm.trans h.alike, ?_⟩,
      ⟨step_sound h.sound config _, step_sound h.sound' config _,
        (hidle.symm.trans h.alike).trans hidle', ?_⟩⟩
    · intro d' hd' hor
      exact h.recorded_step hids hd (Or.inl hself) hd' (hor.imp_right Or.inl)
    · intro d' hd' hor
      exact h.recorded_step hids hd (Or.inl hself) hd' (hor.imp_right Or.inr)
  agree := by
    intro db db' d hd h hfresh
    have hagree : Alike ((consumer config).step d db) ((consumer config).step d db') ∧
        (consumer config).returns d db = (consumer config).returns d db' :=
      consumer_agree h hd hfresh
    obtain ⟨halike, hreturns⟩ := hagree
    refine ⟨step_sound h.sound config _, step_sound h.sound' config _, halike, ?_⟩
    intro d' hd' hor
    apply h.recorded_step hids hd ?_ hd' (hor.imp_right Or.inr)
    cases hresult : (consumer config).returns d db with
    | true => exact Or.inl (consumer_after h hd hresult)
    | false => exact Or.inr ⟨rfl, by rw [← hreturns, hresult]⟩
  after := fun _ _ _ hd h hreturns => consumer_after h hd hreturns
  stays := fun _ _ d _ _ _ h habsorbed => consumer_stays h.sound config d habsorbed
  fact := fun _ _ _ hsame habsorbed => habsorbed.sameFact hsame

end Consumer

/-! ## What happened before -/

/-- The wallet or the transfer an event is about is in the database. -/
def Known (db : Db) (eventType : EventType) (payload : Payload) : Prop :=
  match eventType with
  | .depositConfirmed => (db.walletAt payload).isSome = true
  | .depositReorged => (payload.getD "was_confirmed" .null).truthy = true →
      (db.walletAt payload).isSome = true
  | .txBroadcasted | .txConfirmed | .txFailed => (db.named payload).isSome = true
  | .depositDetected | .transferRequested | .unknown _ => True

/-- What every step of the service keeps. -/
structure Later (db db' : Db) : Prop where
  wallets : db.wallets.rows <+: db'.wallets.rows
  keys : ∀ k ∈ db.entryKeys, k ∈ db'.entryKeys
  rows : ∀ k, db.hasRow k → db'.hasRow k
  transfers : Grows db db'

theorem Later.of_evolved {db db' : Db} (h : Evolved db db')
    (hwallets : db'.wallets = db.wallets) : Later db db' where
  wallets := hwallets ▸ List.prefix_refl _
  keys := h.keys
  rows := h.rows
  transfers := h.grows

theorem Later.refl (db : Db) : Later db db :=
  Later.of_evolved (Handled.refl db).evolved rfl

theorem TransferCreated.later {scope : Scope} {newId : Uuid}
    {request : TransferRequest} {db db' : Db} {t : Transfer}
    (h : TransferCreated scope newId request db t db') : Later db db' := by
  have hgrows := h.grows
  obtain ⟨asset, mid, transfers, outbox, _, _, hmoved, _, _, rfl⟩ := h.change
  refine ⟨?_, hmoved.keys_mono, hmoved.rows, hgrows⟩
  simp only [hmoved.frame.wallets, List.prefix_refl]

theorem TransferCreated.processedEvents {scope : Scope} {newId : Uuid}
    {request : TransferRequest} {db db' : Db} {t : Transfer}
    (h : TransferCreated scope newId request db t db') :
    db'.processedEvents = db.processedEvents := by
  obtain ⟨asset, mid, transfers, outbox, _, _, hmoved, _, _, rfl⟩ := h.change
  exact hmoved.frame.processedEvents

theorem Later.trans {db₁ db₂ db₃ : Db} (h : Later db₁ db₂) (h' : Later db₂ db₃) :
    Later db₁ db₃ where
  wallets := h.wallets.trans h'.wallets
  keys := fun k hk => h'.keys k (h.keys k hk)
  rows := fun k hk => h'.rows k (h.rows k hk)
  transfers := h.transfers.trans h'.transfers

/-- The step is the delivery of this event id. -/
def Step.Delivers (s : Step) (id : EventId) : Prop :=
  ∃ scope envelope, s = .dispatch scope envelope ∧ envelope.eventId = id

theorem attachWallet_later (db : Db) (newId : Uuid) (userId : Int)
    (network asset address : String) :
    Ensures (attachWallet newId userId network asset address) db
      (fun _ db' => Later db db' ∧ db'.processedEvents = db.processedEvents)
      (fun _ => True) := by
  apply (attachWallet_ensures db newId userId network asset address).mono ?_
    (fun _ _ => trivial)
  rintro _ db' ⟨_, wallets, hmoved, hwallets⟩
  have hevolved := Evolved.of_moved hmoved
  refine ⟨⟨?_, hevolved.keys, hevolved.rows, hevolved.grows⟩,
    hmoved.frame.processedEvents⟩
  rw [hmoved.frame.wallets]
  rcases hwallets with rfl | ⟨wallet, hinserted⟩
  · exact List.prefix_refl _
  · rw [Table.insert?_rows hinserted.insert]
    exact List.prefix_append _ _

theorem Posted.later {settings : ApiSettings} {scope : Scope} {newId : Uuid}
    {request : TransferRequest} {db db' : Db} {response : PostResponse}
    (h : Posted settings scope newId request db response db') :
    Later db db' ∧ db'.processedEvents = db.processedEvents := by
  cases h with
  | replayed => exact ⟨Later.refl db, rfl⟩
  | created hcreated _ _ =>
      have hlater := hcreated.later
      exact ⟨⟨hlater.wallets, hlater.keys, hlater.rows, hlater.transfers⟩,
        hcreated.processedEvents⟩

theorem stepTx_later {db : Db} (h : Sound db) (config : Config) (s : Step) :
    Ensures (stepTx config s) db
      (fun _ db' => Later db db' ∧
        ∀ id, db'.Recorded id → db.Recorded id ∨ s.Delivers id)
      (fun _ => True) := by
  have hrefl := Later.refl db
  have hkept : ∀ {db' : Db}, Later db db' ∧ db'.processedEvents = db.processedEvents →
      Later db db' ∧ ∀ id, db'.Recorded id → db.Recorded id ∨ s.Delivers id := by
    rintro db' ⟨hlater, hevents⟩
    refine ⟨hlater, fun id hid => Or.inl ?_⟩
    rwa [Db.Recorded, ← hevents]
  cases s with
  | createUser newId name email =>
      apply Ensures.discard
      apply (createUser_ensures db config.letterCase newId name email).mono ?_
        (fun _ _ => trivial)
      rintro _ _ ⟨_, users, _, rfl⟩
      exact hkept ⟨⟨hrefl.wallets, hrefl.keys, hrefl.rows, hrefl.transfers⟩, rfl⟩
  | attachWallet newId userId network asset address =>
      apply Ensures.discard
      exact (attachWallet_later db newId userId network asset address).mono
        (fun _ _ h => hkept h) (fun _ h => h)
  | createTransfer scope newId request =>
      apply Ensures.discard
      apply (createTransfer_ensures db scope newId request).mono ?_
        (fun _ _ => trivial)
      exact fun _ _ hcreated => hkept ⟨hcreated.later, hcreated.processedEvents⟩
  | postTransfer scope newId body =>
      apply Ensures.discard
      apply (postTransfer_ensures db config.api scope newId body).mono ?_
        (fun _ _ => trivial)
      rintro _ _ ⟨request, _, hposted⟩
      exact hkept hposted.later
  | relay now publishError =>
      unfold stepTx
      apply Ensures.modifyDb
      exact hkept ⟨⟨hrefl.wallets, hrefl.keys, hrefl.rows, hrefl.transfers⟩, rfl⟩
  | progress now =>
      have hevolves := stepTx_evolves h config (s := .progress now) rfl
      have hframe : Ensures (stepTx config (.progress now)) db
          (fun _ db' => db'.wallets = db.wallets ∧
            db'.processedEvents = db.processedEvents) (fun _ => True) := by
        apply Ensures.discard
        apply (progressOnce_ensures db now).mono ?_ (fun _ _ => trivial)
        rintro _ _ rfl
        exact ⟨rfl, rfl⟩
      apply (hevolves.and hframe).mono ?_ (fun _ _ => trivial)
      rintro _ db' ⟨hevolved, hwallets, hevents⟩
      exact hkept ⟨Later.of_evolved hevolved hwallets, hevents⟩
  | dispatch scope envelope =>
      apply Ensures.discard
      apply (dispatch_delivers h scope envelope).mono ?_ (fun _ h => h)
      intro _ db' hdelivered
      refine ⟨Later.of_evolved hdelivered.evolved hdelivered.wallets, ?_⟩
      intro id hid
      exact (hdelivered.recorded id hid).imp_right
        fun heq => ⟨scope, envelope, rfl, heq.symm⟩

theorem step_later {db : Db} (h : Sound db) (config : Config) (s : Step) :
    Later db (step config s db) ∧
      ∀ id, (step config s db).Recorded id → db.Recorded id ∨ s.Delivers id := by
  have hdb : Later db db ∧ ∀ id, db.Recorded id → db.Recorded id ∨ s.Delivers id :=
    ⟨Later.refl db, fun _ h => Or.inl h⟩
  exact commit_preserves (I := fun db' => Later db db' ∧
    ∀ id, db'.Recorded id → db.Recorded id ∨ s.Delivers id) hdb
    (stepTx_later h config s)

theorem runSteps_later {db : Db} (h : Sound db) (config : Config)
    (steps : List Step) : Later db (runSteps (step config) db steps) := by
  induction steps generalizing db with
  | nil => exact Later.refl db
  | cons s rest ih =>
      rw [runSteps_cons]
      exact (step_later h config s).1.trans (ih (step_sound h config s))

theorem Later.walletAt {db db' : Db} (h : Later db db') {payload : Payload}
    {wallet : WalletRow} (hwallet : db.walletAt payload = some wallet) :
    db'.walletAt payload = some wallet := by
  obtain ⟨rest, hrest⟩ := h.wallets
  unfold Db.walletAt at hwallet ⊢
  cases hitem : payload.item "to_address" with
  | error e => simp [hitem] at hwallet
  | ok address =>
      simp only [hitem] at hwallet ⊢
      split at hwallet
      next text htext =>
        rw [← hrest, List.find?_append, hwallet, Option.some_or]
      next => cases hwallet

theorem Later.named {db db' : Db} (h : Later db db') {payload : Payload}
    {t : Transfer} (hnamed : db.named payload = some t) :
    ∃ t', db'.named payload = some t' ∧ Forward t t' := by
  obtain ⟨t', ht', hforward⟩ :=
    h.transfers t (Table.mem_of_find? (Db.find?_of_named hnamed))
  refine ⟨t', ?_, hforward⟩
  simp only [Db.named, namedId_of_named hnamed, Option.bind_some]
  rw [← hforward.terms.id]
  exact db'.transfers.find?_of_mem ht'

/-- Once its wallet or transfer is known, an absorbed event stays absorbed
whatever the service does. -/
theorem Absorbed.later {db db' : Db} (h : Later db db') {eventType : EventType}
    {payload : Payload} (hknown : Known db eventType payload)
    (habsorbed : Absorbed db eventType payload) :
    Absorbed db' eventType payload := by
  have hwalletAt : ∀ {wallet : WalletRow}, (db.walletAt payload).isSome = true →
      db'.walletAt payload = some wallet → db.walletAt payload = some wallet := by
    intro wallet hsome hwallet
    obtain ⟨wallet', hwallet'⟩ := Option.isSome_iff_exists.mp hsome
    rw [h.walletAt hwallet', Option.some.injEq] at hwallet
    rw [hwallet', hwallet]
  have hreached : ∀ {status}, (db.named payload).isSome = true →
      db.Reached payload status → db'.Reached payload status := by
    intro status hsome hreached t' hnamed'
    obtain ⟨t, hnamed⟩ := Option.isSome_iff_exists.mp hsome
    obtain ⟨t'', hnamed'', hforward⟩ := h.named hnamed
    rw [hnamed'', Option.some.injEq] at hnamed'
    exact hnamed' ▸ le_trans (hreached t hnamed) hforward.rank
  cases eventType with
  | depositConfirmed =>
      intro wallet hwallet
      exact (habsorbed wallet (hwalletAt hknown hwallet)).mono h.keys h.rows
  | depositReorged =>
      intro hconfirmed wallet hwallet
      have hwallet := hwalletAt (hknown hconfirmed) hwallet
      exact (habsorbed hconfirmed wallet hwallet).mono h.keys h.rows
  | txBroadcasted => exact hreached hknown habsorbed
  | txConfirmed => exact hreached hknown habsorbed
  | txFailed => exact hreached hknown habsorbed
  | depositDetected | transferRequested | unknown name => trivial

theorem Known.later {db db' : Db} (h : Later db db') {eventType : EventType}
    {payload : Payload} (hknown : Known db eventType payload) :
    Known db' eventType payload := by
  have hwalletAt : (db.walletAt payload).isSome = true →
      (db'.walletAt payload).isSome = true := by
    intro hsome
    obtain ⟨wallet, hwallet⟩ := Option.isSome_iff_exists.mp hsome
    rw [h.walletAt hwallet]
    rfl
  have hnamed : (db.named payload).isSome = true →
      (db'.named payload).isSome = true := by
    intro hsome
    obtain ⟨t, ht⟩ := Option.isSome_iff_exists.mp hsome
    obtain ⟨t', ht', _⟩ := h.named ht
    rw [ht']
    rfl
  cases eventType with
  | depositConfirmed => exact hwalletAt hknown
  | depositReorged => exact fun hconfirmed => hwalletAt (hknown hconfirmed)
  | txBroadcasted | txConfirmed | txFailed => exact hnamed hknown
  | depositDetected | transferRequested | unknown name => trivial

/-- Every recorded id was recorded by a delivery which was handled. -/
theorem recorded_delivery (config : Config) (history : List Step) {id : EventId}
    (hrecorded : (run config history).Recorded id) :
    ∃ before scope envelope after,
      history = before ++ Step.dispatch scope envelope :: after ∧
      envelope.eventId = id ∧ ¬(run config before).Recorded id ∧
      (consumer config).returns ⟨scope, envelope⟩ (run config before) = true := by
  induction history using List.reverseRecOn with
  | nil => simp [run, Db.Recorded, Db.empty] at hrecorded
  | append_singleton history s ih =>
      have hsound := run_sound config history
      rw [run_append] at hrecorded
      by_cases hbefore : (run config history).Recorded id
      · obtain ⟨before, scope, envelope, after, rfl, hrest⟩ := ih hbefore
        refine ⟨before, scope, envelope, after ++ [s], ?_, hrest⟩
        rw [List.append_assoc, List.cons_append]
      · rcases (step_later hsound config s).2 id hrecorded with hold |
          ⟨scope, envelope, rfl, hid⟩
        · exact absurd hold hbefore
        · refine ⟨history, scope, envelope, [], rfl, hid, hbefore, ?_⟩
          have hafter : ((consumer config).step ⟨scope, envelope⟩
              (run config history)).Recorded id := hrecorded
          rcases consumer_recorded hsound hafter with hold | ⟨_, hreturns⟩
          · exact absurd hold hbefore
          · exact hreturns

/-! ## At-least-once delivery -/

def envelopes (history : List Step) : List Envelope :=
  history.filterMap fun s =>
    match s with
    | .dispatch _ envelope => some envelope
    | _ => none

/-- An event id is redelivered with the type and payload it had before. -/
def IdsNameFacts (sent : List Envelope) : Prop :=
  ∀ envelope ∈ sent, ∀ envelope' ∈ sent, envelope.eventId = envelope'.eventId →
    Envelope.sameFact envelope envelope' = true

/-- An event which was handled before the deliveries was handled when its
wallet or transfer was in the database. -/
def HandledWhenKnown (config : Config) (history : List Step)
    (deliveries : List Delivery) : Prop :=
  ∀ before scope envelope after,
    history = before ++ Step.dispatch scope envelope :: after →
    (∃ d ∈ deliveries, d.envelope.eventId = envelope.eventId) →
    (consumer config).returns ⟨scope, envelope⟩ (run config before) = true →
    Known (run config before) envelope.eventType envelope.payload

/-- The same ledger, balances and transfer statuses. -/
structure SameBooks (db db' : Db) : Prop where
  ledger : db.ledger = db'.ledger
  balances : db.balances = db'.balances
  statuses : db.transfers.rows.map (fun t => (t.id, t.status)) =
    db'.transfers.rows.map fun t => (t.id, t.status)

theorem Alike.sameBooks {db db' : Db} (h : Alike db db') : SameBooks db db' where
  ledger := h.ledger
  balances := h.balances
  statuses := by
    have hstatuses := congrArg (List.map fun t : Transfer => (t.id, t.status)) h.transfers
    rw [List.map_map, List.map_map] at hstatuses
    exact hstatuses

/-- Events which are recorded already are absorbed. -/
theorem absorbed_of_recorded {config : Config} {history : List Step}
    {deliveries : List Delivery}
    (hids : IdsNameFacts (envelopes history ++ deliveries.map Delivery.envelope))
    (hknown : HandledWhenKnown config history deliveries) {d : Delivery}
    (hd : d ∈ deliveries)
    (hrecorded : (run config history).Recorded d.envelope.eventId) :
    Absorbed (run config history) d.envelope.eventType d.envelope.payload := by
  obtain ⟨before, scope, envelope, after, hhistory, hid, hfree, hreturns⟩ :=
    recorded_delivery config history hrecorded
  have hsound := run_sound config before
  have hbefore := hknown before scope envelope after hhistory ⟨d, hd, hid.symm⟩ hreturns
  have hstep := step_later hsound config (.dispatch scope envelope)
  have habsorbed : Absorbed (step config (.dispatch scope envelope) (run config before))
      envelope.eventType envelope.payload := by
    rcases consumer_cases hsound config ⟨scope, envelope⟩ with ⟨_, hdelivered⟩ | ⟨hraised, _⟩
    · exact hdelivered.absorbs (hid ▸ hfree)
    · rw [hraised] at hreturns
      cases hreturns
  have hlater := runSteps_later (step_sound hsound config (.dispatch scope envelope))
    config after
  have hrun : run config history = runSteps (step config)
      (step config (.dispatch scope envelope) (run config before)) after := by
    rw [hhistory, run_append, runSteps_cons]
  rw [hrun]
  apply (habsorbed.later hlater (hbefore.later hstep.1)).sameFact
  apply hids
  · apply List.mem_append_left
    rw [hhistory, envelopes, List.filterMap_append]
    simp
  · exact List.mem_append_right _ (List.mem_map_of_mem hd)
  · exact hid

/-- Deliveries have the effect of the deliveries without their repeats. -/
theorem deliveries_without_repeats (config : Config) (history : List Step)
    (deliveries : List Delivery)
    (hids : IdsNameFacts (envelopes history ++ deliveries.map Delivery.envelope))
    (hknown : HandledWhenKnown config history deliveries) :
    SameBooks
      (runSteps (consumer config).step (run config history) deliveries)
      (runSteps (consumer config).step (run config history)
        ((consumer config).withoutRepeats [] (run config history) deliveries)) := by
  have hsound := run_sound config history
  have hrelated : Related deliveries (run config history) (run config history) := by
    refine ⟨hsound, hsound, Alike.refl _, ?_⟩
    intro d hd hrecorded
    exact absorbed_of_recorded hids hknown hd (hrecorded.elim id id)
  have hids' : ∀ d ∈ deliveries, ∀ d' ∈ deliveries,
      d.envelope.eventId = d'.envelope.eventId →
      Envelope.sameFact d.envelope d'.envelope = true := by
    intro d hd d' hd' hid
    exact hids _ (List.mem_append_right _ (List.mem_map_of_mem hd)) _
      (List.mem_append_right _ (List.mem_map_of_mem hd')) hid
  have hnone : ∀ d ∈ ([] : List Delivery), d ∈ deliveries ∧
      Absorbed (run config history) d.envelope.eventType d.envelope.payload := by
    simp
  have hrun := (consumer_absorbing config hids').run hrelated hnone
    (fun _ hd => hd)
  exact hrun.alike.sameBooks

/-! A deposit event which came before its wallet was attached is recorded and
ignored.  Its redelivery is then a non-raising delivery without effect, and the
same fact under a fresh id is credited. -/

def redeliveredDeposit (id : EventId) : Envelope :=
  ⟨id, .depositConfirmed, "blockchain-service", "", spentPayload, []⟩

def attachedSteps : List Step :=
  [.createUser 1 "Alice" "alice@example.com",
    .attachWallet (someUuid 1) 1 "BSC" "USDT" "0xA"]

def earlySteps : List Step :=
  .dispatch spentScope (redeliveredDeposit (.uuid4 1)) :: attachedSteps

def repeatedDeliveries : List Delivery :=
  [⟨spentScope, redeliveredDeposit (.uuid4 1)⟩,
    ⟨spentScope, redeliveredDeposit (.uuid4 1)⟩,
    ⟨spentScope, redeliveredDeposit (.uuid4 2)⟩]

set_option maxRecDepth 10000 in
theorem early_deposit_repeat_counts :
    ¬SameBooks
      (runSteps (consumer spentConfig).step (run spentConfig earlySteps)
        repeatedDeliveries)
      (runSteps (consumer spentConfig).step (run spentConfig earlySteps)
        ((consumer spentConfig).withoutRepeats [] (run spentConfig earlySteps)
          repeatedDeliveries)) := by
  intro h
  have hledger := congrArg (fun ledger => ledger.rows.length) h.ledger
  revert hledger
  decide

theorem attached_deliveries_without_repeats :
    SameBooks
      (runSteps (consumer spentConfig).step (run spentConfig attachedSteps)
        repeatedDeliveries)
      (runSteps (consumer spentConfig).step (run spentConfig attachedSteps)
        ((consumer spentConfig).withoutRepeats [] (run spentConfig attachedSteps)
          repeatedDeliveries)) := by
  apply deliveries_without_repeats
  · unfold IdsNameFacts
    decide
  · intro before scope envelope after hhistory
    have hmem : Step.dispatch scope envelope ∈ attachedSteps := by
      rw [hhistory]
      simp
    simp [attachedSteps] at hmem

end CryptoWallet.Wallet
