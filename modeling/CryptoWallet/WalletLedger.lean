import CryptoWallet.WalletSchema
import Mathlib.Data.List.Sort

/-!
# The posting engine

`postEntries` is the only operation which writes ledger entries and the only
one which moves `posted`; `placeHold` and `releaseHold` are the only ones which
move `reserved`.  Every UPDATE builds a new `Balance`, so it passes the CHECK
constraints or raises.

All of them are described by one relation: `Moved db db' entries hold` says that
the transaction appended exactly `entries`, moved every `posted` by their sum
and every `reserved` by `hold`, and touched nothing but balances and ledger.
An UPDATE can be rejected by a CHECK constraint only when the debits exceed the
available balance.
-/

namespace CryptoWallet.Wallet

open Tx

/-! ## Statements -/

def Balance.zero (userId : Int) (asset : Varchar 16) : Balance where
  userId
  asset := asset.val
  posted := 0
  reserved := 0
  version := 0
  assetFits := asset.property.1
  reservedNonNegative := le_refl 0
  availableNonNegative := by simp

/-- The row an UPDATE writes; the constraints are tested in the order of their
names. -/
def Balance.updated (b : Balance) (posted reserved : Int) :
    Except Failure Balance :=
  if havailable : 0 ≤ posted - reserved then
    if hreserved : 0 ≤ reserved then
      .ok { b with
        posted, reserved
        version := b.version + 1
        reservedNonNegative := hreserved
        availableNonNegative := havailable }
    else .error (.integrity .ckBalanceReservedNonNegative)
  else .error (.integrity .ckBalanceAvailableNonNegative)

/-- `UPDATE balances SET ... WHERE user_id, asset AND condition`; the result is
the number of rows. -/
def updateBalance (account : Account) (condition : Balance → Bool)
    (posted reserved : Balance → Int) : WalletTx Nat := do
  match ← query (·.balances.find? account) with
  | none => return 0
  | some b =>
    if condition b then
      lockRow (.balance account)
      let b' ← orRaise (b.updated (posted b) (reserved b))
      modifyDb fun db => { db with balances := db.balances.replace b' }
      return 1
    else return 0

structure Posting where
  userId : Int
  amount : Int
  entryType : EntryType
  referenceType : ReferenceType
  referenceId : String

def ensureBalance (userId : Int) (asset : String) : WalletTx Unit := do
  let stored ← orRaise (varchar 16 asset)
  match ← query (·.balances.find? (userId, stored.val)) with
  | some _ => return ()
  | none =>
    match ← query (·.users.find? userId) with
    | none => throw (.integrity .balancesUserIdFkey)
    | some _ => modifyDb fun db => { db with
        balances := (db.balances.insert? (Balance.zero userId stored)).getD
          db.balances }

def lockBalance (userId : Int) (asset : String) : WalletTx Balance := do
  ensureBalance userId asset
  match ← query (·.balances.find? (userId, asset)) with
  | none => throw .noResult
  | some b =>
    lockRow (.balance (userId, asset))
    return b

def bindCorrelation (scope : Scope) : Except Failure (Option String) :=
  match scope.correlationId with
  | none => .ok none
  | some id => (varchar 64 id).map fun stored => some stored.val

/-- The insertion of one entry, which `uq_ledger_idempotency` may absorb. -/
def insertEntry (scope : Scope) (asset : String) (posting : Posting) :
    WalletTx Bool := do
  let storedAsset ← orRaise (varchar 16 asset)
  let referenceId ← orRaise (varchar 200 posting.referenceId)
  let correlationId ← orRaise (bindCorrelation scope)
  if hamount : posting.amount ≠ 0 then
    let entry : LedgerEntry := {
      userId := posting.userId
      asset := storedAsset.val
      amount := posting.amount
      entryType := posting.entryType
      referenceType := posting.referenceType
      referenceId := referenceId.val
      correlationId
      amountNonZero := hamount }
    match ← query (·.ledger.insert? entry) with
    | none => return false
    | some ledger =>
      match ← query (·.users.find? posting.userId) with
      | none => throw (.integrity .ledgerEntriesUserIdFkey)
      | some _ =>
        modifyDb fun db => { db with ledger }
        return true
  else throw (.integrity .ckLedgerAmountNonZero)

/-- One round of the loop in `post_entries`. -/
def postEntry (scope : Scope) (asset : String) (posting : Posting) :
    WalletTx Nat := do
  let _ ← lockBalance posting.userId asset
  if ← insertEntry scope asset posting then
    let _ ← updateBalance (posting.userId, asset) (fun _ => true)
      (fun b => b.posted + posting.amount) (fun b => b.reserved)
    return 1
  else return 0

def postSorted (scope : Scope) (asset : String) : List Posting → WalletTx Nat
  | [] => return 0
  | posting :: rest => do
    let written ← postEntry scope asset posting
    let more ← postSorted scope asset rest
    return written + more

def sortPostings (postings : List Posting) : List Posting :=
  postings.insertionSort fun p q => p.userId ≤ q.userId

def postEntries (scope : Scope) (asset : String) (postings : List Posting) :
    WalletTx Nat :=
  postSorted scope asset (sortPostings postings)

def placeHold (userId : Int) (asset : String) (amount : Int) :
    WalletTx Bool := do
  let rowcount ← updateBalance (userId, asset)
    (fun b => amount ≤ b.posted - b.reserved)
    (fun b => b.posted) (fun b => b.reserved + amount)
  return rowcount = 1

def releaseHold (userId : Int) (asset : String) (amount : Int) :
    WalletTx Unit := do
  let _ ← updateBalance (userId, asset) (fun _ => true)
    (fun b => b.posted) (fun b => b.reserved - amount)

/-! ## What the statements do to balances and ledger -/

def entriesSum (k : Account) (entries : List LedgerEntry) : Int :=
  (entries.map fun e => if e.account = k then e.amount else 0).sum

@[simp] theorem entriesSum_nil (k : Account) : entriesSum k [] = 0 := rfl

@[simp] theorem entriesSum_cons (k : Account) (e : LedgerEntry)
    (rest : List LedgerEntry) :
    entriesSum k (e :: rest) =
      (if e.account = k then e.amount else 0) + entriesSum k rest := by
  simp [entriesSum]

@[simp] theorem entriesSum_append (k : Account)
    (entries entries' : List LedgerEntry) :
    entriesSum k (entries ++ entries') =
      entriesSum k entries + entriesSum k entries' := by
  simp [entriesSum]

def holdAt (account : Account) (amount : Int) (k : Account) : Int :=
  if account = k then amount else 0

/-- The tables no posting touches. -/
structure SameBesidesBooks (db db' : Db) : Prop where
  users : db'.users = db.users
  wallets : db'.wallets = db.wallets
  transfers : db'.transfers = db.transfers
  idempotencyKeys : db'.idempotencyKeys = db.idempotencyKeys
  outbox : db'.outbox = db.outbox
  processedEvents : db'.processedEvents = db.processedEvents

structure Moved (db db' : Db) (entries : List LedgerEntry)
    (hold : Account → Int) : Prop where
  ledger : db'.ledger.rows = db.ledger.rows ++ entries
  posted : ∀ k, db'.postedOf k = db.postedOf k + entriesSum k entries
  reserved : ∀ k, db'.reservedOf k = db.reservedOf k + hold k
  rows : ∀ k, db.hasRow k → db'.hasRow k
  entryRows : ∀ e ∈ entries, db'.hasRow e.account
  frame : SameBesidesBooks db db'

theorem SameBesidesBooks.refl (db : Db) : SameBesidesBooks db db :=
  ⟨rfl, rfl, rfl, rfl, rfl, rfl⟩

theorem SameBesidesBooks.trans {db₁ db₂ db₃ : Db}
    (h : SameBesidesBooks db₁ db₂) (h' : SameBesidesBooks db₂ db₃) :
    SameBesidesBooks db₁ db₃ where
  users := h'.users.trans h.users
  wallets := h'.wallets.trans h.wallets
  transfers := h'.transfers.trans h.transfers
  idempotencyKeys := h'.idempotencyKeys.trans h.idempotencyKeys
  outbox := h'.outbox.trans h.outbox
  processedEvents := h'.processedEvents.trans h.processedEvents

namespace Moved

variable {db₁ db₂ db₃ : Db} {entries entries' : List LedgerEntry}
  {hold hold' : Account → Int}

theorem refl (db : Db) : Moved db db [] 0 where
  ledger := by simp
  posted := by simp
  reserved := by simp
  rows := fun _ h => h
  entryRows := by simp
  frame := SameBesidesBooks.refl db

theorem trans (h : Moved db₁ db₂ entries hold)
    (h' : Moved db₂ db₃ entries' hold') :
    Moved db₁ db₃ (entries ++ entries') (hold + hold') where
  ledger := by rw [h'.ledger, h.ledger, List.append_assoc]
  posted := by
    intro k
    rw [h'.posted, h.posted, entriesSum_append, add_assoc]
  reserved := by
    intro k
    rw [h'.reserved, h.reserved, Pi.add_apply, add_assoc]
  rows := fun k hk => h'.rows k (h.rows k hk)
  entryRows := by
    intro e he
    rcases List.mem_append.mp he with he | he
    · exact h'.rows e.account (h.entryRows e he)
    · exact h'.entryRows e he
  frame := h.frame.trans h'.frame

/-- Steps which only prepare rows do not show up in the account of a move. -/
theorem trans_left (h : Moved db₁ db₂ [] 0)
    (h' : Moved db₂ db₃ entries hold) : Moved db₁ db₃ entries hold := by
  simpa using h.trans h'

theorem available (h : Moved db₁ db₂ entries hold) (k : Account) :
    db₂.availableOf k =
      db₁.availableOf k + entriesSum k entries - hold k := by
  unfold Db.availableOf
  rw [h.posted, h.reserved]
  ring

end Moved

/-! ### One UPDATE -/

theorem Balance.updated_ok {b b' : Balance} {posted reserved : Int}
    (h : b.updated posted reserved = .ok b') :
    b'.account = b.account ∧ b'.posted = posted ∧ b'.reserved = reserved := by
  unfold Balance.updated at h
  split_ifs at h
  cases h
  exact ⟨rfl, rfl, rfl⟩

theorem Balance.updated_error {b : Balance} {posted reserved : Int}
    {e : Failure} (h : b.updated posted reserved = .error e) :
    posted - reserved < 0 ∨ reserved < 0 := by
  unfold Balance.updated at h
  split_ifs at h
  · right
    omega
  · left
    omega

theorem find?_replace_account {db : Db} {b b' : Balance} {k : Account}
    (hfind : db.balances.find? k = some b) (haccount : b'.account = b.account)
    (k' : Account) :
    (db.balances.replace b').find? k' =
      if k' = k then some b' else db.balances.find? k' := by
  have hkey : b.account = k := Table.key_of_find? hfind
  have hold : db.balances.find? b'.account = some b := by
    rw [haccount, hkey, hfind]
  rw [db.balances.find?_replace hold, haccount, hkey]

/-- An UPDATE of `reserved` moves the hold of one account. -/
theorem moved_reserved {db : Db} {b b' : Balance} {k : Account} {amount : Int}
    (hfind : db.balances.find? k = some b)
    (hb' : b.updated b.posted (b.reserved + amount) = .ok b') :
    Moved db { db with balances := db.balances.replace b' } []
      (holdAt k amount) := by
  obtain ⟨haccount, hposted, hreserved⟩ := Balance.updated_ok hb'
  have hfind' := find?_replace_account hfind haccount
  constructor
  · simp
  · intro k'
    simp only [Db.postedOf, hfind', entriesSum_nil, add_zero]
    by_cases hk : k' = k
    · simp [hk, hfind, hposted]
    · simp [hk]
  · intro k'
    simp only [Db.reservedOf, hfind', holdAt]
    by_cases hk : k' = k
    · simp [hk, hfind, hreserved]
    · simp [hk, Ne.symm hk]
  · intro k' hk'
    by_cases hk : k' = k
    · exact ⟨b', by rw [hfind', if_pos hk]⟩
    · obtain ⟨row, hrow⟩ := hk'
      exact ⟨row, by rw [hfind', if_neg hk, hrow]⟩
  · simp
  · exact ⟨rfl, rfl, rfl, rfl, rfl, rfl⟩

/-- An insertion into the ledger followed by the UPDATE of `posted`. -/
theorem moved_posted {db : Db} {b b' : Balance} {e : LedgerEntry}
    {ledger : Ledger}
    (hfind : db.balances.find? e.account = some b)
    (hledger : db.ledger.insert? e = some ledger)
    (hb' : b.updated (b.posted + e.amount) b.reserved = .ok b') :
    Moved db { db with ledger, balances := db.balances.replace b' } [e] 0 := by
  obtain ⟨haccount, hposted, hreserved⟩ := Balance.updated_ok hb'
  have hfind' := find?_replace_account hfind haccount
  constructor
  · exact Table.insert?_rows hledger
  · intro k'
    simp only [Db.postedOf, hfind', entriesSum_cons, entriesSum_nil, add_zero]
    by_cases hk : k' = e.account
    · simp [hk, hfind, hposted]
    · simp [hk, Ne.symm hk]
  · intro k'
    simp only [Db.reservedOf, hfind', Pi.zero_apply, add_zero]
    by_cases hk : k' = e.account
    · simp [hk, hfind, hreserved]
    · simp [hk]
  · intro k' hk'
    by_cases hk : k' = e.account
    · exact ⟨b', by rw [hfind', if_pos hk]⟩
    · obtain ⟨row, hrow⟩ := hk'
      exact ⟨row, by rw [hfind', if_neg hk, hrow]⟩
  · intro e' he'
    rw [List.mem_singleton] at he'
    exact ⟨b', by rw [he', hfind', if_pos rfl]⟩
  · exact ⟨rfl, rfl, rfl, rfl, rfl, rfl⟩

/-! ## Specifications -/

/-- A rejection by a CHECK constraint on `balances` needs a reason. -/
def RejectedOnlyIf (reason : Prop) (e : Failure) : Prop :=
  e.isBalanceCheck = true → reason

theorem RejectedOnlyIf.of_not {reason : Prop} {e : Failure}
    (h : e.isBalanceCheck = false) : RejectedOnlyIf reason e := by
  intro hcheck
  rw [h] at hcheck
  cases hcheck

theorem RejectedOnlyIf.mono {reason reason' : Prop} {e : Failure}
    (hreason : reason → reason') (h : RejectedOnlyIf reason e) :
    RejectedOnlyIf reason' e :=
  fun hcheck => hreason (h hcheck)

theorem moved_zero {db : Db} {userId : Int} {stored : Varchar 16}
    (hfree : db.balances.find? (userId, stored.val) = none) :
    let balances := (db.balances.insert? (Balance.zero userId stored)).getD
      db.balances
    Moved db { db with balances } [] 0 ∧
      ({ db with balances } : Db).hasRow (userId, stored.val) := by
  obtain ⟨balances, hinsert⟩ :=
    db.balances.exists_insert? (Balance.zero userId stored) hfree
  have hfind := Table.find?_insert? hinsert
  have haccount : (Balance.zero userId stored).account = (userId, stored.val) := rfl
  rw [haccount] at hfind
  simp only [hinsert, Option.getD_some]
  refine ⟨?_, ⟨Balance.zero userId stored, by rw [hfind, if_pos rfl]⟩⟩
  constructor
  · simp
  · intro k
    simp only [Db.postedOf, hfind, entriesSum_nil, add_zero]
    by_cases hk : k = (userId, stored.val)
    · simp [hk, hfree, Balance.zero]
    · simp [hk]
  · intro k
    simp only [Db.reservedOf, hfind, Pi.zero_apply, add_zero]
    by_cases hk : k = (userId, stored.val)
    · simp [hk, hfree, Balance.zero]
    · simp [hk]
  · intro k hrow
    by_cases hk : k = (userId, stored.val)
    · exact ⟨Balance.zero userId stored, by rw [hfind, if_pos hk]⟩
    · obtain ⟨row, hrow⟩ := hrow
      exact ⟨row, by rw [hfind, if_neg hk, hrow]⟩
  · simp
  · exact ⟨rfl, rfl, rfl, rfl, rfl, rfl⟩

theorem ensureBalance_ensures (db : Db) (userId : Int) (asset : String) :
    Ensures (ensureBalance userId asset) db
      (fun _ db' => Moved db db' [] 0 ∧
        ∃ stored, varchar 16 asset = .ok stored ∧
          db'.hasRow (userId, stored.val))
      (RejectedOnlyIf False) := by
  unfold ensureBalance
  apply Ensures.orRaise_bind
  · intro stored hstored
    apply Ensures.query_bind
    cases hfind : db.balances.find? (userId, stored.val) with
    | some b =>
        exact Ensures.pure ⟨Moved.refl db, stored, hstored, ⟨b, hfind⟩⟩
    | none =>
        apply Ensures.query_bind
        cases db.users.find? userId with
        | none => exact Ensures.throw (RejectedOnlyIf.of_not rfl)
        | some user =>
            apply Ensures.modifyDb
            have hzero := moved_zero hfind
            exact ⟨hzero.1, stored, hstored, hzero.2⟩
  · intro e he
    exact RejectedOnlyIf.of_not (varchar_not_balanceCheck he)

theorem lockBalance_ensures (db : Db) (userId : Int) (asset : String) :
    Ensures (lockBalance userId asset) db
      (fun b db' => Moved db db' [] 0 ∧
        db'.balances.find? (userId, asset) = some b)
      (RejectedOnlyIf False) := by
  unfold lockBalance
  apply Ensures.bind (ensureBalance_ensures db userId asset)
  intro _ db₁ hensured
  apply Ensures.query_bind
  cases hfind : db₁.balances.find? (userId, asset) with
  | none => exact Ensures.throw (RejectedOnlyIf.of_not rfl)
  | some b =>
      apply Ensures.lockRow_bind
      exact Ensures.pure ⟨hensured.1, hfind⟩

theorem updateBalance_ensures {db : Db} {account : Account} {b : Balance}
    (hfind : db.balances.find? account = some b)
    (condition : Balance → Bool) (posted reserved : Balance → Int) :
    Ensures (updateBalance account condition posted reserved) db
      (fun rowcount db' =>
        (condition b = false ∧ rowcount = 0 ∧ db' = db) ∨
          (condition b = true ∧ rowcount = 1 ∧
            ∃ b', b.updated (posted b) (reserved b) = .ok b' ∧
              db' = { db with balances := db.balances.replace b' }))
      (RejectedOnlyIf
        (condition b = true ∧ (posted b - reserved b < 0 ∨ reserved b < 0))) := by
  unfold updateBalance
  apply Ensures.query_bind
  simp only [hfind]
  cases hcondition : condition b with
  | false => exact Ensures.pure (Or.inl ⟨rfl, rfl, rfl⟩)
  | true =>
      apply Ensures.lockRow_bind
      apply Ensures.orRaise_bind
      · intro b' hb'
        apply Ensures.modifyDb_bind
        exact Ensures.pure (Or.inr ⟨rfl, rfl, b', hb', rfl⟩)
      · intro e he _
        exact ⟨rfl, Balance.updated_error he⟩

/-- The entry an insertion writes for a posting. -/
structure EntryOf (scope : Scope) (asset : String) (posting : Posting)
    (e : LedgerEntry) : Prop where
  userId : e.userId = posting.userId
  asset : e.asset = asset
  amount : e.amount = posting.amount
  entryType : e.entryType = posting.entryType
  referenceType : e.referenceType = posting.referenceType
  referenceId : ∃ stored : Varchar 200,
    varchar 200 posting.referenceId = .ok stored ∧ e.referenceId = stored.val
  correlationId : bindCorrelation scope = .ok e.correlationId

theorem EntryOf.account_eq {scope : Scope} {asset : String} {posting : Posting}
    {e : LedgerEntry} (h : EntryOf scope asset posting e) :
    e.account = (posting.userId, asset) := by
  rw [LedgerEntry.account, h.userId, h.asset]

theorem bindCorrelation_not_balanceCheck {scope : Scope} {e : Failure}
    (h : bindCorrelation scope = .error e) : e.isBalanceCheck = false := by
  unfold bindCorrelation at h
  split at h
  · cases h
  next id _ =>
    cases hvarchar : varchar 64 id with
    | ok stored => simp [hvarchar, Except.map] at h
    | error e' =>
        simp only [hvarchar, Except.map, Except.error.injEq] at h
        rw [← h]
        exact varchar_not_balanceCheck hvarchar

theorem insertEntry_ensures (db : Db) (scope : Scope) {asset : String}
    (hasset : asset.length ≤ 16) (posting : Posting) :
    Ensures (insertEntry scope asset posting) db
      (fun inserted db' => ∃ e, EntryOf scope asset posting e ∧
        ((inserted = false ∧ db' = db ∧ (db.ledger.find? e.key).isSome) ∨
          (inserted = true ∧ ∃ ledger, db.ledger.insert? e = some ledger ∧
            db' = { db with ledger })))
      (RejectedOnlyIf False) := by
  unfold insertEntry
  apply Ensures.orRaise_bind
  · intro storedAsset hstoredAsset
    apply Ensures.orRaise_bind
    · intro referenceId hreferenceId
      apply Ensures.orRaise_bind
      · intro correlationId hcorrelationId
        split
        next hamount =>
          apply Ensures.query_bind
          generalize hentry : LedgerEntry.mk _ _ _ _ _ _ _ _ = entry
          have hentryOf : EntryOf scope asset posting entry := by
            subst hentry
            exact ⟨rfl, varchar_eq hasset hstoredAsset, rfl, rfl, rfl,
              ⟨referenceId, hreferenceId, rfl⟩, hcorrelationId⟩
          cases hinsert : db.ledger.insert? entry with
          | none =>
              have htaken := (db.ledger.insert?_eq_none_iff entry).mp hinsert
              exact Ensures.pure ⟨entry, hentryOf, Or.inl ⟨rfl, rfl, htaken⟩⟩
          | some ledger =>
              apply Ensures.query_bind
              cases db.users.find? posting.userId with
              | none => exact Ensures.throw (RejectedOnlyIf.of_not rfl)
              | some user =>
                  apply Ensures.modifyDb_bind
                  exact Ensures.pure ⟨entry, hentryOf,
                    Or.inr ⟨rfl, ledger, hinsert, rfl⟩⟩
        next => exact Ensures.throw (RejectedOnlyIf.of_not rfl)
      · intro e he
        exact RejectedOnlyIf.of_not (bindCorrelation_not_balanceCheck he)
    · intro e he
      exact RejectedOnlyIf.of_not (varchar_not_balanceCheck he)
  · intro e he
    exact RejectedOnlyIf.of_not (varchar_not_balanceCheck he)

theorem postEntry_ensures (db : Db) (scope : Scope) (asset : String)
    (posting : Posting) :
    Ensures (postEntry scope asset posting) db
      (fun written db' => ∃ e, EntryOf scope asset posting e ∧
        db'.hasRow (posting.userId, asset) ∧
        ((written = 0 ∧ (db.ledger.find? e.key).isSome ∧ Moved db db' [] 0) ∨
          (written = 1 ∧ db.ledger.find? e.key = none ∧ Moved db db' [e] 0)))
      (RejectedOnlyIf
        (db.availableOf (posting.userId, asset) + posting.amount < 0)) := by
  unfold postEntry
  apply Ensures.bind
  · exact (lockBalance_ensures db posting.userId asset).mono
      (fun _ _ h => h) (fun _ h => h.mono False.elim)
  rintro b db₁ ⟨hlocked, hfind⟩
  have hkey : b.account = (posting.userId, asset) := Table.key_of_find? hfind
  have hasset : asset.length ≤ 16 := by
    have hfits := b.assetFits
    rwa [show b.asset = asset from congrArg Prod.snd hkey] at hfits
  have hledger : db₁.ledger = db.ledger :=
    Table.eq_of_rows_eq (by simpa using hlocked.ledger)
  have havailable : db.availableOf (posting.userId, asset) =
      b.posted - b.reserved := by
    have hmoved := hlocked.available (posting.userId, asset)
    rw [Db.availableOf, Db.postedOf_of_find hfind,
      Db.reservedOf_of_find hfind] at hmoved
    simpa using hmoved.symm
  apply Ensures.bind
  · exact (insertEntry_ensures db₁ scope hasset posting).mono
      (fun _ _ h => h) (fun _ h => h.mono False.elim)
  rintro inserted db₂ ⟨e, hentry, ⟨rfl, rfl, htaken⟩ | ⟨rfl, ledger, hinsert, rfl⟩⟩
  · rw [hledger] at htaken
    exact Ensures.pure ⟨e, hentry, ⟨b, hfind⟩, Or.inl ⟨rfl, htaken, hlocked⟩⟩
  · have hfree : db.ledger.find? e.key = none := by
      rw [← hledger]
      exact Table.insert?_free hinsert
    have hreserved := b.reservedNonNegative
    have hfind' : ({ db₁ with ledger } : Db).balances.find?
        (posting.userId, asset) = some b := hfind
    apply Ensures.bind
    · apply (updateBalance_ensures hfind' _ _ _).mono (fun _ _ h => h)
      intro failure hfailure
      refine hfailure.mono ?_
      rintro ⟨_, hlt⟩
      omega
    rintro rowcount db₃ (⟨hcondition, _⟩ | ⟨_, _, b', hb', rfl⟩)
    · cases hcondition
    · rw [← hentry.amount] at hb'
      have hmoved := moved_posted (by rw [hentry.account_eq, hfind]) hinsert hb'
      exact Ensures.pure ⟨e, hentry, hmoved.rows _ ⟨b, hfind⟩,
        Or.inr ⟨rfl, hfree, hlocked.trans_left hmoved⟩⟩

/-! ### The loop over the postings -/

/-- The entries an insertion loop adds to a ledger holding the keys `taken`. -/
def unabsorbed (taken : List EntryKey) : List LedgerEntry → List LedgerEntry
  | [] => []
  | e :: rest =>
    if e.key ∈ taken then unabsorbed taken rest
    else e :: unabsorbed (taken ++ [e.key]) rest

def Db.entryKeys (db : Db) : List EntryKey := db.ledger.rows.map LedgerEntry.key

theorem mem_entryKeys_iff (db : Db) (e : LedgerEntry) :
    e.key ∈ db.entryKeys ↔ (db.ledger.find? e.key).isSome := by
  unfold Db.entryKeys
  constructor
  · intro hmem
    obtain ⟨row, hrow, hkey⟩ := List.mem_map.mp hmem
    rw [← hkey, db.ledger.find?_of_mem hrow]
    rfl
  · intro hsome
    obtain ⟨row, hrow⟩ := Option.isSome_iff_exists.mp hsome
    exact List.mem_map.mpr
      ⟨row, Table.mem_of_find? hrow, Table.key_of_find? hrow⟩

theorem Moved.entryKeys {db db' : Db} {entries : List LedgerEntry}
    {hold : Account → Int} (h : Moved db db' entries hold) :
    db'.entryKeys = db.entryKeys ++ entries.map LedgerEntry.key := by
  rw [Db.entryKeys, h.ledger, List.map_append]
  rfl

/-- What the postings take away from an account at most. -/
def debits (asset : String) (k : Account) (postings : List Posting) : Int :=
  (postings.map fun p =>
    if (p.userId, asset) = k then max 0 (-p.amount) else 0).sum

theorem debits_cons (asset : String) (k : Account) (p : Posting)
    (rest : List Posting) :
    debits asset k (p :: rest) =
      (if (p.userId, asset) = k then max 0 (-p.amount) else 0) +
        debits asset k rest := by
  simp [debits]

theorem debits_nonneg (asset : String) (k : Account) (postings : List Posting) :
    0 ≤ debits asset k postings := by
  induction postings with
  | nil => exact le_refl 0
  | cons p rest ih =>
      rw [debits_cons]
      split
      · omega
      · omega

def Overdrawn (db : Db) (asset : String) (postings : List Posting) : Prop :=
  ∃ k, db.availableOf k < debits asset k postings

theorem postSorted_ensures (db : Db) (scope : Scope) (asset : String)
    (postings : List Posting) :
    Ensures (postSorted scope asset postings) db
      (fun written db' => ∃ candidates,
        List.Forall₂ (EntryOf scope asset) postings candidates ∧
          written = (unabsorbed db.entryKeys candidates).length ∧
          Moved db db' (unabsorbed db.entryKeys candidates) 0)
      (RejectedOnlyIf (Overdrawn db asset postings)) := by
  induction postings generalizing db with
  | nil => exact Ensures.pure ⟨[], List.Forall₂.nil, rfl, Moved.refl db⟩
  | cons p rest ih =>
      unfold postSorted
      apply Ensures.bind
      · apply (postEntry_ensures db scope asset p).mono (fun _ _ h => h)
        intro e he
        refine he.mono ?_
        intro hlt
        refine ⟨(p.userId, asset), ?_⟩
        have hrest := debits_nonneg asset (p.userId, asset) rest
        rw [debits_cons, if_pos rfl]
        omega
      rintro written db₁ ⟨e, hentry, _, hcases⟩
      apply Ensures.bind
      · apply (ih db₁).mono (fun _ _ h => h)
        intro failure hfailure
        refine hfailure.mono ?_
        rintro ⟨k, hlt⟩
        refine ⟨k, ?_⟩
        rw [debits_cons]
        rcases hcases with ⟨_, _, hmoved⟩ | ⟨_, _, hmoved⟩
        · have havailable := hmoved.available k
          simp only [entriesSum_nil, Pi.zero_apply] at havailable
          split <;> omega
        · have havailable := hmoved.available k
          simp only [entriesSum_cons, entriesSum_nil, Pi.zero_apply,
            hentry.account_eq, hentry.amount] at havailable
          split
          next hk =>
            rw [if_pos hk] at havailable
            omega
          next hk =>
            rw [if_neg hk] at havailable
            omega
      rintro more db₂ ⟨candidates, hcandidates, hmore, hmoved₂⟩
      apply Ensures.pure
      refine ⟨e :: candidates, List.Forall₂.cons hentry hcandidates, ?_⟩
      rcases hcases with ⟨rfl, htaken, hmoved₁⟩ | ⟨rfl, hfree, hmoved₁⟩
      · have hkeys : db₁.entryKeys = db.entryKeys := by simp [hmoved₁.entryKeys]
        rw [hkeys] at hmore hmoved₂
        rw [unabsorbed, if_pos ((mem_entryKeys_iff db e).mpr htaken)]
        exact ⟨by rw [hmore, Nat.zero_add], hmoved₁.trans_left hmoved₂⟩
      · have hkeys : db₁.entryKeys = db.entryKeys ++ [e.key] := hmoved₁.entryKeys
        have hnot : e.key ∉ db.entryKeys := by
          rw [mem_entryKeys_iff, hfree]
          simp
        rw [hkeys] at hmore hmoved₂
        rw [unabsorbed, if_neg hnot]
        refine ⟨by rw [hmore, List.length_cons, Nat.add_comm], ?_⟩
        simpa using hmoved₁.trans hmoved₂

theorem debits_sortPostings (asset : String) (k : Account)
    (postings : List Posting) :
    debits asset k (sortPostings postings) = debits asset k postings := by
  unfold debits sortPostings
  exact ((List.perm_insertionSort _ postings).map _).sum_eq

theorem postEntries_ensures (db : Db) (scope : Scope) (asset : String)
    (postings : List Posting) :
    Ensures (postEntries scope asset postings) db
      (fun written db' => ∃ candidates,
        List.Forall₂ (EntryOf scope asset) (sortPostings postings) candidates ∧
          written = (unabsorbed db.entryKeys candidates).length ∧
          Moved db db' (unabsorbed db.entryKeys candidates) 0)
      (RejectedOnlyIf (Overdrawn db asset postings)) := by
  apply (postSorted_ensures db scope asset (sortPostings postings)).mono
    (fun _ _ h => h)
  intro e he
  refine he.mono ?_
  rintro ⟨k, hlt⟩
  exact ⟨k, by rwa [debits_sortPostings] at hlt⟩

/-! ### Holds -/

theorem placeHold_ensures {db : Db} {userId : Int} {asset : String} {b : Balance}
    (hfind : db.balances.find? (userId, asset) = some b) (amount : Int) :
    Ensures (placeHold userId asset amount) db
      (fun held db' =>
        (held = false ∧ db' = db ∧ db.availableOf (userId, asset) < amount) ∨
          (held = true ∧ Moved db db' [] (holdAt (userId, asset) amount)))
      (RejectedOnlyIf (amount < 0)) := by
  have havailable : db.availableOf (userId, asset) = b.posted - b.reserved := by
    rw [Db.availableOf, Db.postedOf_of_find hfind, Db.reservedOf_of_find hfind]
  have hreserved := b.reservedNonNegative
  unfold placeHold
  apply Ensures.bind
  · apply (updateBalance_ensures hfind _ _ _).mono (fun _ _ h => h)
    intro e he
    refine he.mono ?_
    rintro ⟨hcondition, hlt⟩
    rw [decide_eq_true_eq] at hcondition
    omega
  rintro rowcount db' (⟨hcondition, rfl, rfl⟩ | ⟨_, rfl, b', hb', rfl⟩)
  · rw [decide_eq_false_iff_not] at hcondition
    exact Ensures.pure (Or.inl ⟨rfl, rfl, by omega⟩)
  · exact Ensures.pure (Or.inr ⟨rfl, moved_reserved hfind hb'⟩)

theorem releaseHold_ensures {db : Db} {userId : Int} {asset : String}
    (hrow : db.hasRow (userId, asset)) (amount : Int) :
    Ensures (releaseHold userId asset amount) db
      (fun _ db' => Moved db db' [] (holdAt (userId, asset) (-amount)))
      (RejectedOnlyIf
        (amount < 0 ∨ db.reservedOf (userId, asset) < amount)) := by
  obtain ⟨b, hfind⟩ := hrow
  have hreserved := Db.reservedOf_of_find hfind
  have havailable := b.availableNonNegative
  unfold releaseHold
  apply Ensures.bind
  · apply (updateBalance_ensures hfind _ _ _).mono (fun _ _ h => h)
    intro e he
    refine he.mono ?_
    rintro ⟨_, hlt⟩
    omega
  rintro rowcount db' (⟨hcondition, _⟩ | ⟨_, _, b', hb', rfl⟩)
  · cases hcondition
  · exact Ensures.pure (moved_reserved hfind (by rwa [← sub_eq_add_neg]))

end CryptoWallet.Wallet
