import CryptoWallet.WalletDispatch

/-!
# The books are sound

`Sound` collects what holds of balances, ledger and transfers in every
reachable state: snapshots agree with the ledger, holds agree with the open
transfers, and the entries of a transfer are determined by its status.

Each way an operation can change the books keeps `Sound`: preparing a balance
row, posting for a deposit, creating a transfer, and each transition of one.
The handlers' specifications then give the preservation of `Sound` by every
operation of the service.
-/

namespace CryptoWallet.Wallet

open Tx

/-! ## The entries of one transfer -/

/-- What an entry says about an account: user, asset, amount and kind. -/
abbrev Movement := Int × String × Int × EntryType

def LedgerEntry.movement (e : LedgerEntry) : Movement :=
  (e.userId, e.asset, e.amount, e.entryType)

def settlementMovements (t : Transfer) : List Movement :=
  [(t.fromUserId, t.asset, -t.amount, .transferDebit),
    (t.toUserId, t.asset, t.amount, .transferCredit)]

def reversalMovements (t : Transfer) : List Movement :=
  [(t.fromUserId, t.asset, t.amount, .reversal),
    (t.toUserId, t.asset, -t.amount, .reversal)]

/-- The entries a transfer has, given its status. -/
def History (t : Transfer) (movements : List Movement) : Prop :=
  match t.status with
  | .created | .processing | .broadcasted => movements = []
  | .confirmed => movements.Perm (settlementMovements t)
  | .failed =>
    movements = [] ∨
      movements.Perm (settlementMovements t ++ reversalMovements t)

def LedgerEntry.refersTo (id : Uuid) (e : LedgerEntry) : Bool :=
  e.referenceType = .transfer && e.referenceId = id.str

def Db.entriesOf (db : Db) (id : Uuid) : List LedgerEntry :=
  db.ledger.select (LedgerEntry.refersTo id)

theorem History.congr {t t' : Transfer} {movements : List Movement}
    (hterms : SameTerms t t') (hstatus : t'.status = t.status)
    (h : History t movements) : History t' movements := by
  have hsettlement : settlementMovements t' = settlementMovements t := by
    simp [settlementMovements, hterms.fromUserId, hterms.toUserId, hterms.asset,
      hterms.amount]
  have hreversal : reversalMovements t' = reversalMovements t := by
    simp [reversalMovements, hterms.fromUserId, hterms.toUserId, hterms.asset,
      hterms.amount]
  unfold History at h ⊢
  rw [hstatus, hsettlement, hreversal]
  exact h

theorem History.of_open {t : Transfer} {movements : List Movement}
    (hopen : t.status.isOpen = true) (h : History t movements) :
    movements = [] := by
  unfold History at h
  cases hstatus : t.status <;> simp_all [TransferStatus.isOpen]

theorem History.nil_of_open {t : Transfer} (hopen : t.status.isOpen = true) :
    History t [] := by
  unfold History
  cases hstatus : t.status <;> simp_all [TransferStatus.isOpen]

theorem History.of_confirmed {t : Transfer} {movements : List Movement}
    (hconfirmed : t.status = .confirmed) (h : History t movements) :
    movements.Perm (settlementMovements t) := by
  unfold History at h
  rw [hconfirmed] at h
  exact h

/-- Whatever its status, the entries of a transfer sum to zero. -/
theorem History.sum_zero {t : Transfer} {movements : List Movement}
    (h : History t movements) : (movements.map fun m => m.2.2.1).sum = 0 := by
  have hperm : ∀ movements' : List Movement, movements.Perm movements' →
      (movements'.map fun m => m.2.2.1).sum = 0 →
      (movements.map fun m => m.2.2.1).sum = 0 := by
    intro movements' hmovements hzero
    rw [(hmovements.map _).sum_eq, hzero]
  unfold History at h
  cases hstatus : t.status with
  | created | processing | broadcasted => simp_all
  | confirmed =>
      simp only [hstatus] at h
      exact hperm _ h (by simp [settlementMovements])
  | failed =>
      simp only [hstatus] at h
      rcases h with h | h
      · simp [h]
      · exact hperm _ h (by simp [settlementMovements, reversalMovements])

/-! ## A batch of entries for one transfer -/

/-- Entries written for the postings of one transfer. -/
structure Batch (t : Transfer) (postings : List Posting)
    (entries : List LedgerEntry) : Prop where
  movements : (entries.map LedgerEntry.movement).Perm
    (postings.map fun p => (p.userId, t.asset, p.amount, p.entryType))
  reference : ∀ e ∈ entries, e.referenceType = .transfer ∧
    e.referenceId = t.id.str ∧ e.asset = t.asset

theorem EntryOf.movement_eq {scope : Scope} {asset : String} {p : Posting}
    {e : LedgerEntry} (h : EntryOf scope asset p e) :
    e.movement = (p.userId, asset, p.amount, p.entryType) := by
  rw [LedgerEntry.movement, h.userId, h.asset, h.amount, h.entryType]

theorem movements_of_entries {scope : Scope} {asset : String}
    {postings : List Posting} {entries : List LedgerEntry}
    (h : List.Forall₂ (EntryOf scope asset) postings entries) :
    entries.map LedgerEntry.movement =
      postings.map fun p => (p.userId, asset, p.amount, p.entryType) := by
  induction h with
  | nil => rfl
  | cons hentry _ ih => rw [List.map_cons, List.map_cons, ih, hentry.movement_eq]

theorem references_of_entries {scope : Scope} {t : Transfer}
    {postings : List Posting} {entries : List LedgerEntry}
    (hpostings : ∀ p ∈ postings, p.referenceType = .transfer ∧
      p.referenceId = t.id.str)
    (h : List.Forall₂ (EntryOf scope t.asset) postings entries) :
    ∀ e ∈ entries, e.referenceType = .transfer ∧ e.referenceId = t.id.str ∧
      e.asset = t.asset := by
  induction h with
  | nil => simp
  | cons hentry _ ih =>
      intro e he
      rcases List.mem_cons.mp he with rfl | he
      · obtain ⟨htype, hreference⟩ := hpostings _ List.mem_cons_self
        obtain ⟨stored, hstored, hid⟩ := hentry.referenceId
        rw [hreference] at hstored
        have hlength : t.id.str.length ≤ 200 := by
          rw [Uuid.str_length]
          omega
        exact ⟨hentry.referenceType.trans htype,
          hid.trans (varchar_eq hlength hstored), hentry.asset⟩
      · exact ih (fun p hp => hpostings p (List.mem_cons_of_mem _ hp)) e he

theorem batch_of_entries {scope : Scope} {t : Transfer}
    {postings : List Posting} {entries : List LedgerEntry}
    (hpostings : ∀ p ∈ postings, p.referenceType = .transfer ∧
      p.referenceId = t.id.str)
    (hentries : List.Forall₂ (EntryOf scope t.asset) (sortPostings postings)
      entries) :
    Batch t postings entries := by
  have hperm := List.perm_insertionSort
    (fun p q : Posting => p.userId ≤ q.userId) postings
  constructor
  · rw [movements_of_entries hentries]
    exact hperm.map _
  · apply references_of_entries ?_ hentries
    intro p hp
    exact hpostings p (hperm.mem_iff.mp hp)

theorem settlementPostings_reference (t : Transfer) :
    ∀ p ∈ settlementPostings t, p.referenceType = .transfer ∧
      p.referenceId = t.id.str := by
  simp [settlementPostings]

theorem reversalPostings_reference (t : Transfer) :
    ∀ p ∈ reversalPostings t, p.referenceType = .transfer ∧
      p.referenceId = t.id.str := by
  simp [reversalPostings]

/-- New entries with distinct keys are all written. -/
theorem unabsorbed_eq_self {taken : List EntryKey} {entries : List LedgerEntry}
    (hfresh : ∀ e ∈ entries, e.key ∉ taken)
    (hnodup : (entries.map LedgerEntry.key).Nodup) :
    unabsorbed taken entries = entries := by
  induction entries generalizing taken with
  | nil => rfl
  | cons e rest ih =>
      rw [List.map_cons, List.nodup_cons] at hnodup
      rw [unabsorbed, if_neg (hfresh e List.mem_cons_self)]
      congr 1
      apply ih ?_ hnodup.2
      intro e' he' hmem
      rcases List.mem_append.mp hmem with hmem | hmem
      · exact hfresh e' (List.mem_cons_of_mem _ he') hmem
      · rw [List.mem_singleton] at hmem
        exact hnodup.1 (hmem ▸ List.mem_map_of_mem he')

theorem Batch.keys_nodup {t : Transfer} {postings : List Posting}
    {entries : List LedgerEntry} (h : Batch t postings entries)
    (hpostings : (postings.map fun p => (p.userId, p.entryType)).Nodup) :
    (entries.map LedgerEntry.key).Nodup := by
  have hkinds : (entries.map fun e => (e.userId, e.entryType)).Perm
      (postings.map fun p => (p.userId, p.entryType)) := by
    have hmap := h.movements.map fun m => (m.1, m.2.2.2)
    simpa [List.map_map, Function.comp_def, LedgerEntry.movement] using hmap
  have hnodup := hkinds.nodup_iff.mpr hpostings
  have hcomp : (entries.map LedgerEntry.key).map
      (fun k => (k.1, k.2.1)) = entries.map fun e => (e.userId, e.entryType) := by
    simp [List.map_map, Function.comp_def, LedgerEntry.key]
  rw [← hcomp] at hnodup
  exact List.Nodup.of_map _ hnodup

theorem settlementPostings_kinds (t : Transfer) :
    ((settlementPostings t).map fun p => (p.userId, p.entryType)).Nodup := by
  simp [settlementPostings]

theorem reversalPostings_kinds (t : Transfer) :
    ((reversalPostings t).map fun p => (p.userId, p.entryType)).Nodup := by
  simp [reversalPostings, t.distinctParties]

theorem LedgerEntry.refersTo_iff {id : Uuid} {e : LedgerEntry} :
    e.refersTo id = true ↔ e.referenceType = .transfer ∧ e.referenceId = id.str := by
  simp [LedgerEntry.refersTo]

/-- An entry whose key an entry of the transfer could take is one of its own
entries. -/
theorem mem_entriesOf_of_key {db : Db} {id : Uuid} {e : LedgerEntry}
    (hreference : e.referenceType = .transfer ∧ e.referenceId = id.str)
    (hmem : e.key ∈ db.entryKeys) :
    ∃ row ∈ db.entriesOf id, row.key = e.key := by
  obtain ⟨row, hrow, hkey⟩ := List.mem_map.mp hmem
  refine ⟨row, List.mem_filter.mpr ⟨hrow, ?_⟩, hkey⟩
  have htype : row.referenceType = e.referenceType := congrArg (·.2.2.1) hkey
  have hid : row.referenceId = e.referenceId := congrArg (·.2.2.2) hkey
  rw [LedgerEntry.refersTo_iff, htype, hid]
  exact hreference

/-! ## The invariant -/

/-- The entries which belong to transfers, summed over the chosen assets. -/
def Db.transferSum (db : Db) (among : String → Bool) : Int :=
  db.ledger.total fun e =>
    if e.referenceType = .transfer ∧ among e.asset = true then e.amount else 0

structure Sound (db : Db) : Prop where
  posted : ∀ k, db.postedOf k = db.ledgerSum k
  rows : ∀ e ∈ db.ledger.rows, db.hasRow e.account
  held : ∀ k, db.reservedOf k = db.openSum k
  histories : ∀ t ∈ db.transfers.rows,
    History t ((db.entriesOf t.id).map LedgerEntry.movement)
  owned : ∀ e ∈ db.ledger.rows, e.referenceType = .transfer →
    ∃ t ∈ db.transfers.rows, e.referenceId = t.id.str
  balanced : ∀ among, db.transferSum among = 0

theorem Sound.empty : Sound Db.empty := by
  constructor <;>
    simp [Db.empty, Db.postedOf, Db.reservedOf, Db.ledgerSum, Db.openSum,
      Db.transferSum, Table.total]

theorem Sound.holdsCovered {db : Db} (h : Sound db) : HoldsCovered db := by
  intro t ht hopen
  rw [h.held]
  exact Db.amount_le_openSum ht hopen

/-- Only balances, ledger and transfers matter. -/
theorem Sound.congr {db db' : Db} (h : Sound db)
    (hbalances : db'.balances = db.balances) (hledger : db'.ledger = db.ledger)
    (htransfers : db'.transfers = db.transfers) : Sound db' := by
  cases db
  cases db'
  subst hbalances hledger htransfers
  exact ⟨h.posted, h.rows, h.held, h.histories, h.owned, h.balanced⟩

section Moved

variable {db db' : Db} {entries : List LedgerEntry} {hold : Account → Int}

theorem Moved.ledgerSum (h : Moved db db' entries hold) (k : Account) :
    db'.ledgerSum k = db.ledgerSum k + entriesSum k entries := by
  unfold Db.ledgerSum Table.total
  rw [h.ledger, List.map_append, List.sum_append]
  rfl

theorem Moved.entriesOf (h : Moved db db' entries hold) (id : Uuid) :
    db'.entriesOf id =
      db.entriesOf id ++ entries.filter (LedgerEntry.refersTo id) := by
  unfold Db.entriesOf Table.select
  rw [h.ledger, List.filter_append]

theorem Moved.transferSum (h : Moved db db' entries hold)
    (among : String → Bool) :
    db'.transferSum among = db.transferSum among + (entries.map fun e =>
      if e.referenceType = .transfer ∧ among e.asset = true
        then e.amount else 0).sum := by
  unfold Db.transferSum Table.total
  rw [h.ledger, List.map_append, List.sum_append]

theorem Moved.posted_eq_ledgerSum (h : Moved db db' entries hold)
    (hposted : ∀ k, db.postedOf k = db.ledgerSum k) (k : Account) :
    db'.postedOf k = db'.ledgerSum k := by
  rw [h.posted, h.ledgerSum, hposted]

theorem Moved.rows_of_ledger (h : Moved db db' entries hold)
    (hrows : ∀ e ∈ db.ledger.rows, db.hasRow e.account) :
    ∀ e ∈ db'.ledger.rows, db'.hasRow e.account := by
  intro e he
  rw [h.ledger] at he
  rcases List.mem_append.mp he with he | he
  · exact h.rows e.account (hrows e he)
  · exact h.entryRows e he

end Moved

/-- Posting for something which is no transfer. -/
theorem Sound.moved {db db' : Db} {entries : List LedgerEntry} (h : Sound db)
    (hmoved : Moved db db' entries 0)
    (hother : ∀ e ∈ entries, e.referenceType ≠ .transfer) : Sound db' where
  posted := hmoved.posted_eq_ledgerSum h.posted
  rows := hmoved.rows_of_ledger h.rows
  held := by
    intro k
    rw [hmoved.reserved, Db.openSum, hmoved.frame.transfers, h.held]
    simp [Db.openSum]
  histories := by
    intro t ht
    rw [hmoved.frame.transfers] at ht
    have hnone : entries.filter (LedgerEntry.refersTo t.id) = [] := by
      rw [List.filter_eq_nil_iff]
      intro e he hrefers
      exact hother e he (LedgerEntry.refersTo_iff.mp hrefers).1
    rw [hmoved.entriesOf, hnone, List.append_nil]
    exact h.histories t ht
  owned := by
    intro e he htype
    rw [hmoved.frame.transfers]
    rw [hmoved.ledger] at he
    rcases List.mem_append.mp he with he | he
    · exact h.owned e he htype
    · exact absurd htype (hother e he)
  balanced := by
    intro among
    rw [hmoved.transferSum, h.balanced, zero_add]
    apply List.sum_eq_zero
    intro x hx
    obtain ⟨e, he, rfl⟩ := List.mem_map.mp hx
    simp [hother e he]

theorem mem_of_mem_unabsorbed {taken : List EntryKey}
    {entries : List LedgerEntry} {e : LedgerEntry}
    (h : e ∈ unabsorbed taken entries) : e ∈ entries := by
  induction entries generalizing taken with
  | nil => exact h
  | cons head rest ih =>
      rw [unabsorbed] at h
      split at h
      · exact List.mem_cons_of_mem _ (ih h)
      · rcases List.mem_cons.mp h with rfl | h
        · exact List.mem_cons_self
        · exact List.mem_cons_of_mem _ (ih h)

theorem Sound.depositPosted {scope : Scope} {db db' : Db} (h : Sound db)
    (hposted : DepositPosted scope db db') : Sound db' := by
  rcases hposted with rfl | ⟨asset, posting, e, hentry, htype, hmoved⟩
  · exact h
  · apply h.moved hmoved
    intro e' he'
    have he' := mem_of_mem_unabsorbed he'
    rw [List.mem_singleton] at he'
    rw [he', hentry.referenceType, htype]
    simp

/-- A transfer the database does not have yet has no entries. -/
theorem Sound.entriesOf_new {db : Db} (h : Sound db) {id : Uuid}
    (hnew : db.transfers.find? id = none) : db.entriesOf id = [] := by
  unfold Db.entriesOf Table.select
  rw [List.filter_eq_nil_iff]
  intro e he hrefers
  obtain ⟨htype, hid⟩ := LedgerEntry.refersTo_iff.mp hrefers
  obtain ⟨t, ht, hid'⟩ := h.owned e he htype
  have heq : t.id = id := Uuid.str_injective (hid'.symm.trans hid)
  exact db.transfers.find?_eq_none_iff.mp hnew t ht heq

theorem Sound.created {db mid : Db} {t : Transfer}
    {transfers : Table Uuid Transfer Transfer.id} (h : Sound db)
    (hmoved : Moved db mid [] (holdAt t.sender t.amount))
    (hinsert : mid.transfers.insert? t = some transfers)
    (hstatus : t.status = .created) :
    Sound { mid with transfers } where
  posted := hmoved.posted_eq_ledgerSum h.posted
  rows := hmoved.rows_of_ledger h.rows
  held := by
    intro k
    have hheld : t.held k = holdAt t.sender t.amount k := by
      simp [Transfer.held, holdAt, hstatus, TransferStatus.isOpen]
    have hsum : Db.openSum { mid with transfers } k = db.openSum k + t.held k := by
      unfold Db.openSum
      rw [Table.total_insert? hinsert, hmoved.frame.transfers]
    rw [hsum, hheld, ← h.held]
    exact hmoved.reserved k
  histories := by
    intro t' ht'
    have hentries := hmoved.entriesOf t'.id
    rw [List.filter_nil, List.append_nil] at hentries
    have hgoal : Db.entriesOf { mid with transfers } t'.id = db.entriesOf t'.id :=
      hentries
    rw [hgoal]
    rcases (Table.mem_insert? hinsert).mp ht' with ht' | rfl
    · rw [hmoved.frame.transfers] at ht'
      exact h.histories t' ht'
    · have hfree := Table.insert?_free hinsert
      rw [hmoved.frame.transfers] at hfree
      rw [h.entriesOf_new hfree]
      exact History.nil_of_open (by rw [hstatus]; rfl)
  owned := by
    intro e he htype
    have he : e ∈ mid.ledger.rows := he
    rw [hmoved.ledger, List.append_nil] at he
    obtain ⟨t', ht', hid⟩ := h.owned e he htype
    refine ⟨t', (Table.mem_insert? hinsert).mpr (Or.inl ?_), hid⟩
    rwa [hmoved.frame.transfers]
  balanced := by
    intro among
    have hsum := hmoved.transferSum among
    rw [h.balanced, List.map_nil, List.sum_nil, add_zero] at hsum
    exact hsum

/-- One transition of one transfer, with the entries it writes. -/
theorem Sound.transition {db db' : Db} {t t' : Transfer}
    {entries : List LedgerEntry} {hold : Account → Int} (h : Sound db)
    (htransition : Transition db db' t t' entries hold)
    (hhold : ∀ k, hold k = t'.held k - t.held k)
    (hreference : ∀ e ∈ entries, e.referenceType = .transfer ∧
      e.referenceId = t.id.str ∧ e.asset = t.asset)
    (hsum : (entries.map LedgerEntry.amount).sum = 0)
    (hhistory : History t'
      ((db.entriesOf t.id ++ entries).map LedgerEntry.movement)) :
    Sound db' := by
  obtain ⟨mid, hmoved, rfl⟩ := htransition.change
  have hfind : mid.transfers.find? t'.id = some t := by
    rw [hmoved.frame.transfers, htransition.terms.id, htransition.find]
  have hmem := fun r => mid.transfers.mem_replace hfind (r := r)
  constructor
  · exact hmoved.posted_eq_ledgerSum h.posted
  · exact hmoved.rows_of_ledger h.rows
  · intro k
    have htotal := mid.transfers.total_replace hfind fun row => row.held k
    have hopen : Db.openSum { mid with transfers := mid.transfers.replace t' } k =
        db.openSum k - t.held k + t'.held k := by
      unfold Db.openSum
      rw [htotal, hmoved.frame.transfers]
    have hreserved : Db.reservedOf { mid with
        transfers := mid.transfers.replace t' } k = mid.reservedOf k := rfl
    rw [hopen, hreserved, hmoved.reserved, h.held, hhold]
    ring
  · intro row hrow
    have hentries : Db.entriesOf { mid with
        transfers := mid.transfers.replace t' } row.id = mid.entriesOf row.id := rfl
    rw [hentries, hmoved.entriesOf]
    rcases (hmem row).mp hrow with rfl | ⟨hrow, hne⟩
    · have hall : entries.filter (LedgerEntry.refersTo row.id) = entries := by
        rw [List.filter_eq_self]
        intro e he
        obtain ⟨htype, hid, _⟩ := hreference e he
        rw [LedgerEntry.refersTo_iff, htransition.terms.id]
        exact ⟨htype, hid⟩
      rw [hall, htransition.terms.id]
      exact hhistory
    · have hnone : entries.filter (LedgerEntry.refersTo row.id) = [] := by
        rw [List.filter_eq_nil_iff]
        intro e he hrefers
        obtain ⟨_, hid, _⟩ := hreference e he
        have hid' := (LedgerEntry.refersTo_iff.mp hrefers).2
        apply hne
        rw [htransition.terms.id]
        exact Uuid.str_injective (hid'.symm.trans hid)
      rw [hnone, List.append_nil]
      rw [hmoved.frame.transfers] at hrow
      exact h.histories row hrow
  · intro e he htype
    have hkeep : ∀ row ∈ db.transfers.rows, e.referenceId = row.id.str →
        ∃ row' ∈ (mid.transfers.replace t').rows, e.referenceId = row'.id.str := by
      intro row hrow hid
      by_cases hrowId : row.id = t'.id
      · exact ⟨t', (hmem t').mpr (Or.inl rfl), hrowId ▸ hid⟩
      · rw [← hmoved.frame.transfers] at hrow
        exact ⟨row, (hmem row).mpr (Or.inr ⟨hrow, hrowId⟩), hid⟩
    have he : e ∈ mid.ledger.rows := he
    rw [hmoved.ledger] at he
    rcases List.mem_append.mp he with he | he
    · obtain ⟨row, hrow, hid⟩ := h.owned e he htype
      exact hkeep row hrow hid
    · exact hkeep t (Table.mem_of_find? htransition.find) (hreference e he).2.1
  · intro among
    have hnew : (entries.map fun e =>
        if e.referenceType = .transfer ∧ among e.asset = true
          then e.amount else 0).sum = 0 := by
      cases hamong : among t.asset with
      | true =>
          have hmap : (entries.map fun e =>
              if e.referenceType = .transfer ∧ among e.asset = true
                then e.amount else 0) = entries.map LedgerEntry.amount := by
            apply List.map_congr_left
            intro e he
            obtain ⟨htype, _, hasset⟩ := hreference e he
            simp [htype, hasset, hamong]
          rw [hmap, hsum]
      | false =>
          apply List.sum_eq_zero
          intro x hx
          obtain ⟨e, he, rfl⟩ := List.mem_map.mp hx
          simp [(hreference e he).2.2, hamong]
    have htotal := hmoved.transferSum among
    rw [h.balanced, hnew, add_zero] at htotal
    exact htotal

/-! ## The transitions -/

theorem held_of_open {t : Transfer} (hopen : t.status.isOpen = true)
    (k : Account) : t.held k = holdAt t.sender t.amount k := by
  simp [Transfer.held, holdAt, hopen]

theorem held_of_closed {t : Transfer} (hclosed : t.status.isOpen = false)
    (k : Account) : t.held k = 0 := by
  simp [Transfer.held, hclosed]

theorem holdAt_neg (account : Account) (amount : Int) (k : Account) :
    holdAt account (-amount) k = -holdAt account amount k := by
  unfold holdAt
  split <;> simp

/-- The entries of a batch sum up to its postings. -/
theorem Batch.sum_eq {t : Transfer} {postings : List Posting}
    {entries : List LedgerEntry} (h : Batch t postings entries) :
    (entries.map LedgerEntry.amount).sum = (postings.map Posting.amount).sum := by
  have hperm := h.movements.map fun m => m.2.2.1
  simp only [List.map_map, Function.comp_def, LedgerEntry.movement] at hperm
  exact hperm.sum_eq

theorem Sound.entriesOf_open {db : Db} (h : Sound db) {t : Transfer}
    (ht : t ∈ db.transfers.rows) (hopen : t.status.isOpen = true) :
    db.entriesOf t.id = [] := by
  have hnil := (h.histories t ht).of_open hopen
  simpa using hnil

theorem Sound.marked {db db' : Db} {t t' : Transfer} (h : Sound db)
    (hopen : t.status.isOpen = true) (hstatus : t'.status = .broadcasted)
    (htransition : Transition db db' t t' [] 0) : Sound db' := by
  have hopen' : t'.status.isOpen = true := by rw [hstatus]; rfl
  apply h.transition htransition
  · intro k
    rw [held_of_open hopen, held_of_open hopen', htransition.terms.sender,
      htransition.terms.amount]
    simp
  · simp
  · rfl
  · rw [h.entriesOf_open (Table.mem_of_find? htransition.find) hopen]
    exact History.nil_of_open hopen'

/-- Settlement writes both sides: no key of an open transfer is taken. -/
theorem Sound.settlement_unabsorbed {db : Db} {t : Transfer}
    {entries : List LedgerEntry} (h : Sound db) (ht : t ∈ db.transfers.rows)
    (hopen : t.status.isOpen = true)
    (hbatch : Batch t (settlementPostings t) entries) :
    unabsorbed db.entryKeys entries = entries := by
  apply unabsorbed_eq_self ?_ (hbatch.keys_nodup (settlementPostings_kinds t))
  intro e he hmem
  obtain ⟨htype, hid, _⟩ := hbatch.reference e he
  obtain ⟨row, hrow, _⟩ := mem_entriesOf_of_key ⟨htype, hid⟩ hmem
  rw [h.entriesOf_open ht hopen] at hrow
  cases hrow

theorem Sound.settled {scope : Scope} {db db' : Db} {t t' : Transfer}
    {candidates : List LedgerEntry} (h : Sound db)
    (hopen : t.status.isOpen = true) (hstatus : t'.status = .confirmed)
    (hcandidates : List.Forall₂ (EntryOf scope t.asset)
      (sortPostings (settlementPostings t)) candidates)
    (htransition : Transition db db' t t' (unabsorbed db.entryKeys candidates)
      (holdAt t.sender (-t.amount))) : Sound db' := by
  have ht := Table.mem_of_find? htransition.find
  have hbatch := batch_of_entries (settlementPostings_reference t) hcandidates
  rw [h.settlement_unabsorbed ht hopen hbatch] at htransition
  have hclosed : t'.status.isOpen = false := by rw [hstatus]; rfl
  apply h.transition htransition
  · intro k
    rw [held_of_open hopen, held_of_closed hclosed, holdAt_neg]
    ring
  · exact hbatch.reference
  · rw [hbatch.sum_eq]
    simp [settlementPostings]
  · rw [h.entriesOf_open ht hopen, List.nil_append]
    unfold History
    rw [hstatus]
    have hterms : settlementMovements t' = settlementMovements t := by
      simp [settlementMovements, htransition.terms.fromUserId,
        htransition.terms.toUserId, htransition.terms.asset,
        htransition.terms.amount]
    rw [hterms]
    simpa [settlementPostings, settlementMovements] using hbatch.movements

theorem Sound.failedOpen {db db' : Db} {t t' : Transfer} (h : Sound db)
    (hopen : t.status.isOpen = true) (hstatus : t'.status = .failed)
    (htransition : Transition db db' t t' [] (holdAt t.sender (-t.amount))) :
    Sound db' := by
  have hclosed : t'.status.isOpen = false := by rw [hstatus]; rfl
  apply h.transition htransition
  · intro k
    rw [held_of_open hopen, held_of_closed hclosed, holdAt_neg]
    ring
  · simp
  · rfl
  · rw [h.entriesOf_open (Table.mem_of_find? htransition.find) hopen]
    unfold History
    rw [hstatus]
    exact Or.inl rfl

/-- A reversal is written once: the entries of a settled transfer are debit and
credit only. -/
theorem Sound.reversal_unabsorbed {db : Db} {t : Transfer}
    {entries : List LedgerEntry} (h : Sound db) (ht : t ∈ db.transfers.rows)
    (hconfirmed : t.status = .confirmed)
    (hbatch : Batch t (reversalPostings t) entries) :
    unabsorbed db.entryKeys entries = entries := by
  apply unabsorbed_eq_self ?_ (hbatch.keys_nodup (reversalPostings_kinds t))
  intro e he hmem
  obtain ⟨htype, hid, _⟩ := hbatch.reference e he
  obtain ⟨row, hrow, hkey⟩ := mem_entriesOf_of_key ⟨htype, hid⟩ hmem
  have hreversal : e.entryType = .reversal := by
    have hmovement := hbatch.movements.mem_iff.mp (List.mem_map_of_mem he)
    simp only [reversalPostings, List.map_cons, List.map_nil, List.mem_cons,
      List.not_mem_nil, or_false, LedgerEntry.movement, Prod.mk.injEq] at hmovement
    rcases hmovement with hmovement | hmovement
    · exact hmovement.2.2.2
    · exact hmovement.2.2.2
  have hrowType : row.entryType ≠ .reversal := by
    have hperm := (h.histories t ht).of_confirmed hconfirmed
    have hmovement := hperm.mem_iff.mp (List.mem_map_of_mem hrow)
    simp only [settlementMovements, List.mem_cons, List.not_mem_nil, or_false,
      LedgerEntry.movement, Prod.mk.injEq] at hmovement
    rcases hmovement with hmovement | hmovement
    · simp [hmovement.2.2.2]
    · simp [hmovement.2.2.2]
  have htypes : row.entryType = e.entryType := congrArg (·.2.1) hkey
  exact hrowType (htypes.trans hreversal)

theorem Sound.reversed {scope : Scope} {db db' : Db} {t t' : Transfer}
    {candidates : List LedgerEntry} (h : Sound db)
    (hconfirmed : t.status = .confirmed) (hstatus : t'.status = .failed)
    (hcandidates : List.Forall₂ (EntryOf scope t.asset)
      (sortPostings (reversalPostings t)) candidates)
    (htransition : Transition db db' t t' (unabsorbed db.entryKeys candidates) 0) :
    Sound db' := by
  have ht := Table.mem_of_find? htransition.find
  have hbatch := batch_of_entries (reversalPostings_reference t) hcandidates
  rw [h.reversal_unabsorbed ht hconfirmed hbatch] at htransition
  have hclosed : t.status.isOpen = false := by rw [hconfirmed]; rfl
  have hclosed' : t'.status.isOpen = false := by rw [hstatus]; rfl
  apply h.transition htransition
  · intro k
    rw [held_of_closed hclosed, held_of_closed hclosed']
    simp
  · exact hbatch.reference
  · rw [hbatch.sum_eq]
    simp [reversalPostings]
  · unfold History
    rw [hstatus]
    right
    have hterms : settlementMovements t' ++ reversalMovements t' =
        settlementMovements t ++ reversalMovements t := by
      simp [settlementMovements, reversalMovements, htransition.terms.fromUserId,
        htransition.terms.toUserId, htransition.terms.asset,
        htransition.terms.amount]
    have hreversal : (candidates.map LedgerEntry.movement).Perm
        (reversalMovements t) := by
      simpa [reversalPostings, reversalMovements] using hbatch.movements
    rw [hterms, List.map_append]
    exact ((h.histories t ht).of_confirmed hconfirmed).append hreversal

/-! ## Every operation keeps the books sound -/

theorem advanced_terms (now : Nat) (outbox : Outbox) (t : Transfer) :
    SameTerms t (advanced now outbox t) := by
  unfold advanced
  split <;> exact ⟨rfl, rfl, rfl, rfl, rfl, rfl, rfl, rfl, rfl⟩

theorem advanced_isOpen (now : Nat) (outbox : Outbox) (t : Transfer) :
    (advanced now outbox t).status.isOpen = t.status.isOpen := by
  unfold advanced
  split
  next hadvances =>
    have hcreated : t.status = .created := by
      simp only [advances, Bool.and_eq_true, decide_eq_true_eq] at hadvances
      exact hadvances.1
    rw [hcreated]
    rfl
  next => rfl

theorem advanced_history {now : Nat} {outbox : Outbox} {t : Transfer}
    {movements : List Movement} (h : History t movements) :
    History (advanced now outbox t) movements := by
  cases hopen : t.status.isOpen with
  | true =>
      rw [h.of_open hopen]
      exact History.nil_of_open (by rw [advanced_isOpen, hopen])
  | false =>
      have hnot : advances outbox t = false := by
        cases hadvances : advances outbox t with
        | false => rfl
        | true =>
            simp only [advances, Bool.and_eq_true, decide_eq_true_eq] at hadvances
            rw [hadvances.1] at hopen
            cases hopen
      have hsame : advanced now outbox t = t := by
        rw [advanced, hnot]
        rfl
      rw [hsame]
      exact h

theorem Sound.progressed {db : Db} (h : Sound db) (now : Nat) :
    Sound { db with
      transfers := db.transfers.mapRows (advanced now db.outbox)
        (advanced_id now db.outbox) } where
  posted := h.posted
  rows := h.rows
  held := by
    intro k
    have hheld : ∀ t, (advanced now db.outbox t).held k = t.held k := by
      intro t
      have hterms := advanced_terms now db.outbox t
      unfold Transfer.held
      rw [advanced_isOpen, hterms.sender, hterms.amount]
    have hsame : Db.openSum { db with
        transfers := db.transfers.mapRows (advanced now db.outbox)
          (advanced_id now db.outbox) } k = db.openSum k := by
      simp [Db.openSum, Table.total, List.map_map, Function.comp_def, hheld]
    rw [hsame, ← h.held]
    rfl
  histories := by
    intro t ht
    obtain ⟨old, hold, rfl⟩ := List.mem_map.mp ht
    rw [advanced_id]
    exact advanced_history (h.histories old hold)
  owned := by
    intro e he htype
    obtain ⟨old, hold, hid⟩ := h.owned e he htype
    refine ⟨advanced now db.outbox old, List.mem_map_of_mem hold, ?_⟩
    rw [advanced_id]
    exact hid
  balanced := h.balanced

theorem createUser_sound {db : Db} (h : Sound db) (letterCase : LetterCase)
    (newId : Int) (name email : String) :
    Ensures (createUser letterCase newId name email) db (fun _ => Sound)
      (RejectedOnlyIf False) := by
  apply (createUser_ensures db letterCase newId name email).mono
  · rintro user _ ⟨_, users, _, rfl⟩
    exact h.congr rfl rfl rfl
  · exact fun _ he => he

theorem attachWallet_sound {db : Db} (h : Sound db) (newId : Uuid) (userId : Int)
    (network asset address : String) :
    Ensures (attachWallet newId userId network asset address) db (fun _ => Sound)
      (RejectedOnlyIf False) := by
  apply (attachWallet_ensures db newId userId network asset address).mono
  · rintro _ db' ⟨_, wallets, hmoved, _⟩
    have hwallets : Sound { db with wallets } := h.congr rfl rfl rfl
    exact hwallets.moved hmoved (by simp)
  · exact fun _ he => he

theorem TransferCreated.sound {scope : Scope} {newId : Uuid}
    {request : TransferRequest} {db db' : Db} {t : Transfer} (h : Sound db)
    (hcreated : TransferCreated scope newId request db t db') : Sound db' := by
  obtain ⟨asset, mid, transfers, outbox, hasset, hfrom, hmoved, hinsert, _, rfl⟩ :=
    hcreated.change
  have hsymbol : t.asset = asset.symbol := by
    obtain ⟨stored, hstored, hvalue⟩ := hfrom.asset
    have hlength : asset.symbol.length ≤ 16 := by
      rw [getAsset_eq_usdt hasset]
      decide
    exact hvalue.trans (varchar_eq hlength hstored)
  have hsender : t.sender = (request.fromUserId, asset.symbol) := by
    rw [Transfer.sender, hfrom.fromUserId, hsymbol]
  rw [← hsender, ← hfrom.amount] at hmoved
  exact (h.created hmoved hinsert hfrom.status).congr rfl rfl rfl

theorem createTransfer_sound {db : Db} (h : Sound db) (scope : Scope)
    (newId : Uuid) (request : TransferRequest) :
    Ensures (createTransfer scope newId request) db (fun _ => Sound)
      (RejectedOnlyIf (request.amountUnits < 0)) := by
  apply (createTransfer_ensures db scope newId request).mono
  · exact fun _ _ hcreated => hcreated.sound h
  · exact fun _ he => he

theorem markBroadcasted_sound {db : Db} (h : Sound db) (scope : Scope)
    (payload : Payload) :
    Ensures (markBroadcasted scope payload) db (fun _ => Sound)
      (RejectedOnlyIf False) := by
  apply (markBroadcasted_ensures db scope payload).mono
  · rintro _ db' (⟨rfl, _⟩ | ⟨t, t', _, hopen, hstatus, htransition⟩)
    · exact h
    · exact h.marked hopen hstatus htransition
  · exact fun _ he => he

theorem settleTransfer_sound {db : Db} (h : Sound db) (scope : Scope)
    (payload : Payload) :
    Ensures (settleTransfer scope payload) db (fun _ => Sound)
      (RejectedOnlyIf False) := by
  apply (settleTransfer_ensures h.holdsCovered scope payload).mono
  · rintro _ db' (⟨rfl, _⟩ | ⟨t, t', candidates, _, hopen, hstatus, hc, htransition⟩)
    · exact h
    · exact h.settled hopen hstatus hc htransition
  · exact fun _ he => he

theorem failTransfer_sound {db : Db} (h : Sound db) (scope : Scope)
    (payload : Payload) :
    Ensures (failTransfer scope payload) db (fun _ => Sound)
      (RejectedOnlyIf (∃ t, db.named payload = some t ∧ t.status = .confirmed)) := by
  apply (failTransfer_ensures h.holdsCovered scope payload).mono
  · rintro _ db' (⟨rfl, _⟩ | ⟨t, t', _, hstatus, hcases⟩)
    · exact h
    · rcases hcases with ⟨hopen, htransition⟩ | ⟨hconfirmed, candidates, hc, htransition⟩
      · exact h.failedOpen hopen hstatus htransition
      · exact h.reversed hconfirmed hstatus hc htransition
  · exact fun _ he => he

/-- Why a delivery can be rejected by a CHECK constraint on `balances`. -/
def RejectionCause (db : Db) (eventType : EventType) (payload : Payload) : Prop :=
  (eventType = .depositReorged ∧
      (payload.getD "was_confirmed" .null).truthy = true) ∨
    (eventType = .txFailed ∧ ∃ t, db.named payload = some t ∧ t.status = .confirmed) ∨
    (eventType = .depositConfirmed ∧
      ∃ amount, CarriesAmount payload amount ∧ amount < 0)

theorem handle_sound {db : Db} (h : Sound db) (scope : Scope)
    (eventType : EventType) (payload : Payload) :
    Ensures (handle scope eventType payload) db (fun _ => Sound)
      (RejectedOnlyIf (RejectionCause db eventType payload)) := by
  cases eventType with
  | depositDetected => exact Ensures.pure h
  | depositConfirmed =>
      apply (creditDeposit_ensures db scope payload).mono
      · exact fun _ _ hposted => h.depositPosted hposted
      · exact fun _ he => he.mono fun hamount => Or.inr (Or.inr ⟨rfl, hamount⟩)
  | depositReorged =>
      apply (reverseDeposit_ensures db scope payload).mono
      · exact fun _ _ hposted => h.depositPosted hposted
      · exact fun _ he => he.mono fun hconfirmed => Or.inl ⟨rfl, hconfirmed⟩
  | txBroadcasted =>
      exact (markBroadcasted_sound h scope payload).mono (fun _ _ h => h)
        (fun _ he => he.mono False.elim)
  | txConfirmed =>
      exact (settleTransfer_sound h scope payload).mono (fun _ _ h => h)
        (fun _ he => he.mono False.elim)
  | txFailed =>
      exact (failTransfer_sound h scope payload).mono (fun _ _ h => h)
        (fun _ he => he.mono fun hcause => Or.inr (Or.inl ⟨rfl, hcause⟩))
  | transferRequested => exact Ensures.pure h
  | unknown name => exact Ensures.pure h

theorem dispatch_sound {db : Db} (h : Sound db) (scope : Scope)
    (envelope : Envelope) :
    Ensures (dispatch scope envelope) db (fun _ => Sound)
      (RejectedOnlyIf
        (RejectionCause db envelope.eventType envelope.payload)) := by
  unfold dispatch
  apply Ensures.bind ((claimEvent_ensures db envelope).mono (fun _ _ h => h)
    (fun e he => he.mono False.elim))
  rintro claimed db₁ (⟨rfl, rfl, _⟩ | ⟨rfl, processedEvents, _, rfl⟩)
  · exact Ensures.pure h
  · have h₁ : Sound { db with processedEvents } := h.congr rfl rfl rfl
    exact handle_sound h₁ (deliveryScope scope envelope) envelope.eventType
      envelope.payload

end CryptoWallet.Wallet
