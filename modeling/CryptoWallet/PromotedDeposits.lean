import CryptoWallet.DepositConfirmation
import CryptoWallet.RecordedChain
import CryptoWallet.ScanCoverage

/-!
# The log a promoted deposit stands for

A deposit is found again by the hash of its transaction and the index of its
log.  When a transaction with several logs is mined again, its logs may come
under other indices: the row then takes over the block of another log, but
keeps the recipient and the amount of the one it was written for.
-/

namespace CryptoWallet.Blockchain

open Tx

variable {σ : Type}

/-! ## The deposit workers over any chain -/

inductive DepositTask (σ : Type) where
  | issueAddress (ownerRef network generated : String)
  | scan (scope : Scope) (newId : TransferLog → Uuid) (calls : ScanCalls σ)
  | watch (scope : Scope) (headCall : σ) (calls : DepositId → LookupCalls σ)

def DepositTask.run (adapter : ChainAdapter σ) (settings : Settings)
    (task : DepositTask σ) (db : Db) : Db :=
  match task with
  | .issueAddress ownerRef network generated =>
    (commit (getOrCreateAddress ownerRef network generated) db).2
  | .scan scope newId calls => (scanOnce adapter settings scope newId calls db).2
  | .watch scope headCall calls =>
    (watchDepositsOnce adapter settings scope headCall calls db).2

/-- What a run of the scanner is about to upsert. -/
def scannedLogs (adapter : ChainAdapter σ) (settings : Settings) (calls : ScanCalls σ)
    (db : Db) : List TransferLog :=
  match scanPlan adapter settings calls db with
  | .ok (some plan) => plan.logs
  | _ => []

/-- What a run of the watcher is about to look at. -/
def listedDeposits (adapter : ChainAdapter σ) (settings : Settings) (headCall : σ)
    (db : Db) : List DepositId :=
  match adapter.getBlockNumber headCall with
  | .ok head => if head = 0 then [] else watchlist settings head db
  | .error _ => []

/-- The log by which the watcher finds a deposit outside the block of its row. -/
def relocated (adapter : ChainAdapter σ) (calls : LookupCalls σ) (d : Deposit) :
    Option TransferLog :=
  match adapter.getReceipt calls.receipt d.txHash with
  | .ok (some receipt) =>
    if receipt.blockHash = d.blockHash then none
    else
      match adapter.getTransferLogs calls.logs receipt.blockNumber receipt.blockNumber
          [d.toAddress.val] with
      | .ok entries => entries.find? fun entry =>
          entry.txHash = d.txHash && entry.logIndex = d.logIndex
      | .error _ => none
  | _ => none

theorem locate_finds {adapter : ChainAdapter σ} {calls : LookupCalls σ} {d : Deposit}
    {number : Nat} {hash : ChainHash}
    (h : locate adapter calls d = .ok (some (number, hash))) :
    (hash = d.blockHash ∧ ∃ receipt, receipt.blockHash = d.blockHash ∧
        adapter.getReceipt calls.receipt d.txHash = .ok (some receipt)) ∨
      ∃ entry, relocated adapter calls d = some entry ∧ hash = entry.blockHash := by
  obtain ⟨found, hreceipt, h⟩ := bind_eq_ok.mp h
  cases found with
  | none => cases h
  | some receipt =>
      by_cases hsame : receipt.blockHash = d.blockHash
      · left
        simp only [hsame, if_true, pure, Except.pure] at h
        cases h
        exact ⟨rfl, receipt, hsame, hreceipt⟩
      · right
        simp only [hsame, if_false] at h
        obtain ⟨entries, hentries, h⟩ := bind_eq_ok.mp h
        simp only [pure, Except.pure, Except.ok.injEq] at h
        obtain ⟨entry, hentry, hplace⟩ := Option.map_eq_some_iff.mp h
        refine ⟨entry, ?_, (congrArg Prod.snd hplace).symm⟩
        simp only [relocated, hreceipt, hsame, if_false, hentries]
        exact hentry

theorem relocated_some {adapter : ChainAdapter σ} {calls : LookupCalls σ} {d : Deposit}
    {entry : TransferLog} (h : relocated adapter calls d = some entry) :
    entry.txHash = d.txHash ∧ entry.logIndex = d.logIndex ∧
      ∃ number entries, entry ∈ entries ∧
        adapter.getTransferLogs calls.logs number number [d.toAddress.val] =
          .ok entries := by
  unfold relocated at h
  cases hreceipt : adapter.getReceipt calls.receipt d.txHash with
  | error e => simp [hreceipt] at h
  | ok found =>
      cases found with
      | none => simp [hreceipt] at h
      | some receipt =>
          simp only [hreceipt, Option.ite_none_left_eq_some] at h
          obtain ⟨_, h⟩ := h
          cases hentries : adapter.getTransferLogs calls.logs receipt.blockNumber
              receipt.blockNumber [d.toAddress.val] with
          | error e => simp [hentries] at h
          | ok entries =>
              simp only [hentries] at h
              have hmem := List.mem_of_find?_eq_some h
              have hkey := List.find?_some h
              simp only [Bool.and_eq_true, decide_eq_true_eq] at hkey
              exact ⟨hkey.1, hkey.2, receipt.blockNumber, entries, hmem, hentries⟩

/-! ## The log of a row -/

/-- The log pays what the row says, to whom the row says. -/
def Deposit.SamePayment (d : Deposit) (entry : TransferLog) : Prop :=
  entry.toAddress = d.toAddress.val ∧ entry.amount = d.amount

instance (d : Deposit) (entry : TransferLog) : Decidable (d.SamePayment entry) :=
  inferInstanceAs (Decidable (_ ∧ _))

/-- The log is under the keys of the row in the block of the row, and pays the same. -/
structure Deposit.StandsFor (d : Deposit) (entry : TransferLog) : Prop where
  txHash : entry.txHash = d.txHash
  logIndex : entry.logIndex = d.logIndex
  blockHash : entry.blockHash = d.blockHash
  payment : d.SamePayment entry

/-- No row is revived for, and no detected deposit moved to, a log which pays another
amount or another address. -/
def DepositTask.KeepsPayments (adapter : ChainAdapter σ) (settings : Settings) (db : Db) :
    DepositTask σ → Prop
  | .issueAddress _ _ _ => True
  | .scan _ _ calls =>
    ∀ entry ∈ scannedLogs adapter settings calls db,
      ∀ d ∈ db.deposits.find? entry.identity, d.status = .reorged → d.SamePayment entry
  | .watch _ headCall calls =>
    ∀ id ∈ listedDeposits adapter settings headCall db, ∀ d ∈ db.deposits.find? id,
      d.status = .detected → ∀ entry ∈ relocated adapter (calls id) d, d.SamePayment entry

instance (adapter : ChainAdapter σ) (settings : Settings) (db : Db)
    (task : DepositTask σ) : Decidable (task.KeepsPayments adapter settings db) :=
  match task with
  | .issueAddress _ _ _ => .isTrue trivial
  | .scan _ _ _ => inferInstanceAs (Decidable (∀ _ ∈ _, _))
  | .watch _ _ _ => inferInstanceAs (Decidable (∀ _ ∈ _, _))

/-- Every detected row stands for a log of some view. -/
def Vouched {adapter : ChainAdapter σ} {letterCase : LetterCase}
    (history : ChainHistory adapter letterCase) (db : Db) : Prop :=
  ∀ id d, db.deposits.find? id = some d → d.status = .detected →
    ∃ chain, ∃ entry ∈ (history.view chain).logs, d.StandsFor entry

section Steps

variable {adapter : ChainAdapter σ} {letterCase : LetterCase}
  {history : ChainHistory adapter letterCase} {settings : Settings} {scope : Scope}

theorem Upserted.vouched {newId : Uuid} {entry : TransferLog} {db db' : Db}
    (h : Upserted scope newId entry db db') (hvouched : Vouched history db) {chain : σ}
    (hentry : entry ∈ (history.view chain).logs)
    (hkeeps : ∀ d, db.deposits.find? entry.identity = some d → d.status = .reorged →
      d.SamePayment entry) :
    Vouched history db' := by
  obtain ⟨hnetwork, hlength⟩ := history.texts_fit chain entry hentry
  intro id d hd hdetected
  cases h with
  | inserted proposed hproposed deposits hinsert payload hpayload outbox houtbox =>
      have hfind := Table.find?_insert? hinsert id
      by_cases hid : id = proposed.identity
      · rw [if_pos hid] at hfind
        cases hfind.symm.trans hd
        refine ⟨chain, entry, hentry, hproposed.txHash.symm, hproposed.logIndex.symm,
          hproposed.blockHash.symm, ?_, hproposed.amount.symm⟩
        exact (varchar_eq hlength hproposed.toAddress).symm
      · rw [if_neg hid] at hfind
        exact hvouched id d (hfind.symm.trans hd) hdetected
  | revived proposed hproposed stored hstored hreorged payload hpayload outbox houtbox =>
      have hkey := Table.key_of_find? hstored
      by_cases hid : id = (stored.revived entry).identity
      · have hfind : (db.deposits.replace (stored.revived entry)).find? id =
            some (stored.revived entry) := by
          rw [hid]
          exact Table.find?_replace_of_key _ rfl (hkey.symm ▸ hstored)
        cases hfind.symm.trans hd
        have hidentity := hproposed.identity hnetwork
        rw [hidentity] at hstored hkey
        have htx : stored.txHash = entry.txHash := congrArg (·.2.1) hkey
        have hindex : stored.logIndex = entry.logIndex := congrArg (·.2.2) hkey
        exact ⟨chain, entry, hentry, htx.symm, hindex.symm, rfl,
          hkeeps stored hstored hreorged⟩
      · have hfind := Table.find?_replace_of_ne db.deposits _ hid
        exact hvouched id d (hfind.symm.trans hd) hdetected
  | known proposed hproposed stored hstored hlive => exact hvouched id d hd hdetected

/-- A row which is reorged after an upsert was the same row before. -/
theorem Upserted.reorged_before {newId : Uuid} {entry : TransferLog} {db db' : Db}
    (h : Upserted scope newId entry db db') {id : DepositId} {d : Deposit}
    (hd : db'.deposits.find? id = some d) (hreorged : d.status = .reorged) :
    db.deposits.find? id = some d := by
  cases h with
  | inserted proposed hproposed deposits hinsert payload hpayload outbox houtbox =>
      have hfind := Table.find?_insert? hinsert id
      by_cases hid : id = proposed.identity
      · rw [if_pos hid] at hfind
        cases hfind.symm.trans hd
        rw [hproposed.status] at hreorged
        cases hreorged
      · rw [if_neg hid] at hfind
        exact hfind.symm.trans hd
  | revived proposed hproposed stored hstored hstatus payload hpayload outbox houtbox =>
      have hkey := Table.key_of_find? hstored
      by_cases hid : id = (stored.revived entry).identity
      · have hfind : (db.deposits.replace (stored.revived entry)).find? id =
            some (stored.revived entry) := by
          rw [hid]
          exact Table.find?_replace_of_key _ rfl (hkey.symm ▸ hstored)
        cases hfind.symm.trans hd
        cases hreorged
      · exact (Table.find?_replace_of_ne db.deposits _ hid).symm.trans hd
  | known proposed hproposed stored hstored hlive => exact hd

theorem UpsertedAll.vouched {newId : TransferLog → Uuid} {logs : List TransferLog}
    {db db' : Db} (h : UpsertedAll scope newId logs db db')
    (hvouched : Vouched history db) {chain : σ}
    (hlogs : ∀ entry ∈ logs, entry ∈ (history.view chain).logs)
    (hkeeps : ∀ entry ∈ logs, ∀ d, db.deposits.find? entry.identity = some d →
      d.status = .reorged → d.SamePayment entry) :
    Vouched history db' := by
  induction h with
  | nil db => exact hvouched
  | cons hfirst hrest ih =>
      apply ih
      · exact hfirst.vouched hvouched (hlogs _ List.mem_cons_self)
          (hkeeps _ List.mem_cons_self)
      · exact fun entry hentry => hlogs entry (List.mem_cons_of_mem _ hentry)
      · intro entry hentry d hd hreorged
        exact hkeeps entry (List.mem_cons_of_mem _ hentry) d
          (hfirst.reorged_before hd hreorged) hreorged

/-- What the watcher leaves as detected or promotes stands for a log: one it found in
the block it names, or the one the row stood for. -/
theorem locate_vouched {calls : LookupCalls σ} {db : Db} (hvouched : Vouched history db)
    (head : Nat) {id : DepositId} {d : Deposit} (hd : db.deposits.find? id = some d)
    (hdetected : d.status = .detected)
    (hkeeps : ∀ entry, relocated adapter calls d = some entry → d.SamePayment entry)
    {number : Nat} {hash : ChainHash}
    (hfound : locate adapter calls d = .ok (some (number, hash))) :
    ∃ chain, ∃ entry ∈ (history.view chain).logs,
      (d.movedTo head number hash).StandsFor entry := by
  rcases locate_finds hfound with ⟨hsame, _⟩ | ⟨entry, hrelocated, hhash⟩
  · obtain ⟨chain, entry, hentry, hstands⟩ := hvouched id d hd hdetected
    exact ⟨chain, entry, hentry, hstands.txHash, hstands.logIndex,
      hstands.blockHash.trans hsame.symm, hstands.payment⟩
  · obtain ⟨htx, hindex, number, entries, hmem, hentries⟩ := relocated_some hrelocated
    have hview := ((history.agrees calls.logs).logs hentries entry).mp hmem
    exact ⟨calls.logs, entry, hview.1, htx, hindex, hhash.symm, hkeeps entry hrelocated⟩

theorem Reverified.vouched {head : Nat} {db db' : Db} {d : Deposit}
    {found : Option (Nat × ChainHash)} (h : Reverified settings scope head db d found db')
    (hvouched : Vouched history db) (hd : db.deposits.find? d.identity = some d)
    (hmoved : ∀ number hash, found = some (number, hash) → d.status = .detected →
      ∃ chain, ∃ entry ∈ (history.view chain).logs,
        (d.movedTo head number hash).StandsFor entry) :
    Vouched history db' := by
  intro id d' hd' hdetected
  by_cases hid : id = d.identity
  · subst hid
    cases h with
    | reorged payload hpayload outbox houtbox =>
        have hfind : (db.deposits.replace (d.reorgedAtTime scope.now)).find? d.identity =
            some (d.reorgedAtTime scope.now) := Table.find?_replace_of_key _ rfl hd
        cases hfind.symm.trans hd'
        cases hdetected
    | confirmed number hash hripe payload hpayload outbox houtbox =>
        have hfind : (db.deposits.replace
            ((d.movedTo head number hash).confirmedAtTime scope.now)).find? d.identity =
            some ((d.movedTo head number hash).confirmedAtTime scope.now) :=
          Table.find?_replace_of_key _ rfl hd
        cases hfind.symm.trans hd'
        cases hdetected
    | moved number hash hripe =>
        have hfind : (db.deposits.replace (d.movedTo head number hash)).find?
            d.identity = some (d.movedTo head number hash) :=
          Table.find?_replace_of_key _ rfl hd
        cases hfind.symm.trans hd'
        exact hmoved number hash rfl hdetected
  · rw [h.find?_other hid] at hd'
    exact hvouched id d' hd' hdetected

theorem scanOnce_vouched {newId : TransferLog → Uuid} {calls : ScanCalls σ} {db : Db}
    (hvouched : Vouched history db)
    (hkeeps : ∀ entry ∈ scannedLogs adapter settings calls db, ∀ d,
      db.deposits.find? entry.identity = some d → d.status = .reorged →
      d.SamePayment entry) :
    Vouched history (scanOnce adapter settings scope newId calls db).2 := by
  rcases scanOnce_cases adapter settings scope newId calls db with
    ⟨hsame, _⟩ | ⟨plan, mid, hplan, hmid, hresult⟩
  · rw [hsame]
    exact hvouched
  · rw [hresult]
    obtain ⟨_, _, logs, _, _, _, _, _, hlogs, hexternal, _⟩ := scanPlan_some hplan
    have hscanned : scannedLogs adapter settings calls db = plan.logs := by
      simp [scannedLogs, hplan]
    rw [hscanned] at hkeeps
    have hseen : ∀ entry ∈ plan.logs, entry ∈ (history.view calls.logs).logs := by
      intro entry hentry
      rw [hexternal] at hentry
      have hfetched : entry ∈ logs := List.mem_of_mem_filter hentry
      unfold fetchLogs at hlogs
      split at hlogs
      · cases hlogs
        simp at hfetched
      · exact (((history.agrees calls.logs).logs hlogs entry).mp hfetched).1
    have hmid' : Vouched history mid := hmid.vouched hvouched hseen hkeeps
    exact hmid'

theorem watchDepositsOnce_vouched {headCall : σ} {calls : DepositId → LookupCalls σ}
    {db : Db} (hvouched : Vouched history db)
    (hkeeps : ∀ id ∈ listedDeposits adapter settings headCall db, ∀ d,
      db.deposits.find? id = some d → d.status = .detected →
      ∀ entry, relocated adapter (calls id) d = some entry → d.SamePayment entry) :
    Vouched history (watchDepositsOnce adapter settings scope headCall calls db).2 := by
  rcases watchDepositsOnce_cases adapter settings scope headCall calls db with
    hsame | ⟨head, hhead, hpositive, hresult⟩
  · rw [hsame]
    exact hvouched
  rw [hresult]
  simp only [listedDeposits, hhead, if_neg hpositive] at hkeeps
  apply visitAll_relies (I := Vouched history)
    (P := fun id db => ∀ d, db.deposits.find? id = some d → d.status = .detected →
      ∀ entry, relocated adapter (calls id) d = some entry → d.SamePayment entry)
    ?_ ?_ (watchlist_nodup settings head db) hvouched hkeeps
  · intro key other before hother hrow
    have hsame : (reverify adapter settings scope (calls key) head key
        before).2.deposits.find? other = before.deposits.find? other :=
      reverify_ownRow adapter settings scope calls head key other before hother
    rwa [hsame]
  intro id before hbefore hrow
  rcases reverify_cases adapter settings scope (calls id) head id before with
    hraised | ⟨_, hgone⟩ | ⟨d, found, verdict, after, hd, hfound, hreverified, hreturned⟩
  · rwa [hraised]
  · rwa [hgone]
  · rw [hreturned]
    have hkey := Table.key_of_find? hd
    subst hkey
    apply hreverified.vouched hbefore hd
    rintro number hash rfl hdetected
    exact locate_vouched hbefore head hd hdetected (hrow d hd hdetected) hfound

theorem getOrCreateAddress_ensures (ownerRef network generated : String) (db : Db) :
    Ensures (getOrCreateAddress ownerRef network generated) db
      (fun _ db' => ∃ addresses, db' = { db with addresses } ∧
        (addresses = db.addresses ∨ ∃ address : Address, address.status = .active ∧
          db.addresses.insert? address = some addresses)) fun _ => True := by
  unfold getOrCreateAddress
  apply Ensures.query_bind
  cases hfind : db.addresses.find? ownerRef with
  | some existing => exact Ensures.pure ⟨db.addresses, rfl, Or.inl rfl⟩
  | none =>
      apply Ensures.orRaise_bind ?_ (fun _ _ => trivial)
      intro owner _
      apply Ensures.orRaise_bind ?_ (fun _ _ => trivial)
      intro storedNetwork _
      apply Ensures.orRaise_bind ?_ (fun _ _ => trivial)
      intro storedAddress _
      apply Ensures.query_bind
      split
      · exact Ensures.throw trivial
      · apply Ensures.modifyDb_bind
        apply Ensures.pure
        refine ⟨_, rfl, ?_⟩
        cases hinsert : db.addresses.insert? ⟨owner, storedNetwork, storedAddress, .active⟩ with
        | none => exact Or.inl rfl
        | some addresses => exact Or.inr ⟨_, rfl, hinsert⟩

theorem DepositTask.run_vouched (history : ChainHistory adapter letterCase) (db : Db)
    (task : DepositTask σ) (hvouched : Vouched history db)
    (hkeeps : task.KeepsPayments adapter settings db) :
    Vouched history (task.run adapter settings db) := by
  cases task with
  | issueAddress ownerRef network generated =>
      apply commit_preserves (I := Vouched history) hvouched
      apply (getOrCreateAddress_ensures ownerRef network generated db).mono
      · rintro _ db' ⟨addresses, rfl, _⟩
        exact hvouched
      · exact fun _ h => h
  | scan scope newId calls => exact scanOnce_vouched hvouched hkeeps
  | watch scope headCall calls => exact watchDepositsOnce_vouched hvouched hkeeps

/-- A place the watcher finds on one chain is a block of that chain. -/
theorem locate_fixed (history : ChainHistory adapter letterCase) {chain : σ} {d : Deposit}
    {number : Nat} {hash : ChainHash}
    (h : locate adapter (.fixed chain) d = .ok (some (number, hash))) :
    ∃ height, (history.view chain).hashAt height = some hash := by
  rcases locate_finds h with ⟨hsame, receipt, hhash, hreceipt⟩ | ⟨entry, hrelocated, hhash⟩
  · have hview := (history.agrees chain).receipt hreceipt
    have hcanonical := (history.view chain).receipt_canonical hview.symm
    exact ⟨receipt.blockNumber, hcanonical.trans (by rw [hhash, hsame])⟩
  · obtain ⟨_, _, number, entries, hmem, hentries⟩ := relocated_some hrelocated
    have hview := ((history.agrees chain).logs hentries entry).mp hmem
    have hcanonical := (history.view chain).log_canonical entry hview.1
    exact ⟨entry.blockNumber, hcanonical.trans (by rw [hhash])⟩

/-- In every run which keeps the payments of the rows, a row promoted by a run of the
watcher that sees one chain stands for a log of that chain, in the block of the row. -/
theorem promoted_deposits_are_on_chain (history : ChainHistory adapter letterCase)
    {tasks : List (DepositTask σ)} {chain : σ}
    (hkeeps : AdmittedRun (DepositTask.run adapter settings)
      (fun db task => task.KeepsPayments adapter settings db) .empty
      (tasks ++ [.watch scope chain fun _ => .fixed chain]))
    {id : DepositId} {d d' : Deposit}
    (hd : (runSteps (DepositTask.run adapter settings) .empty tasks).deposits.find? id =
      some d) (hopen : d.status ≠ .confirmed)
    (hd' : (runSteps (DepositTask.run adapter settings) .empty
      (tasks ++ [.watch scope chain fun _ => .fixed chain])).deposits.find? id = some d')
    (hpromoted : d'.status = .confirmed) :
    ∃ entry ∈ (history.view chain).logs,
      (history.view chain).hashAt entry.blockNumber = some d'.blockHash ∧
        d'.StandsFor entry := by
  obtain ⟨hbefore, hlast, _⟩ := admittedRun_append.mp hkeeps
  have hvouched : Vouched history (runSteps (DepositTask.run adapter settings) .empty tasks) :=
    hbefore.invariant (DepositTask.run_vouched history) (by simp [Vouched, Db.empty])
  rw [runSteps_append] at hd'
  generalize runSteps (DepositTask.run adapter settings) .empty tasks = db at *
  simp only [runSteps_cons, runSteps_nil, DepositTask.run] at hd'
  obtain ⟨head, number, hash, hhead, hpositive, hlist, hfound, hripe, rfl⟩ :=
    watchDepositsOnce_promotes hd hopen hd' hpromoted
  have hlisted : id ∈ listedDeposits adapter settings chain db := by
    simp only [listedDeposits, hhead, if_neg hpositive]
    exact hlist
  have hkeeps' := hlast id hlisted d hd hripe.1
  obtain ⟨seen, entry, hentry, hstands⟩ := locate_vouched hvouched head hd hripe.1 hkeeps'
    hfound
  obtain ⟨height, hheight⟩ := locate_fixed history hfound
  have hhash : entry.blockHash = hash := hstands.blockHash
  have hon := history.committed seen chain entry hentry height (hhash ▸ hheight)
  have hcanonical := (history.view chain).log_canonical entry hon
  exact ⟨entry, hon, hcanonical.trans (by rw [hhash]; rfl), hstands.txHash,
    hstands.logIndex, hstands.blockHash, hstands.payment⟩

end Steps

/-! ### A reorg shifts the logs of a transaction -/

/-- The two chains: another transfer opens the block of the payout, or none does. -/
inductive Fork where
  | behindAnother
  | alone
  deriving DecidableEq

def payoutTx : ChainHash := .literal "0xaa" (by decide)

def Fork.block : Fork → ChainHash
  | behindAnother => .literal "0xb1" (by decide)
  | alone => .literal "0xc1" (by decide)

def Fork.above : Fork → List ChainHash
  | behindAnother => [.literal "0xb2" (by decide), .literal "0xb3" (by decide)]
  | alone => [.literal "0xc2" (by decide), .literal "0xc3" (by decide)]

def secondAddress : String := "0xfB6916095ca1df60bB79Ce92cE3Ea74c37c5d359"

/-- One log of the payout, which pays two addresses in custody. -/
def payoutLog (fork : Fork) (logIndex : Nat) (toAddress : String) (amount : Nat) :
    TransferLog where
  network := "BSC"
  asset := "USDT"
  txHash := payoutTx
  logIndex
  blockNumber := 1
  blockHash := fork.block
  fromAddress := "0x00000000000000000000000000000000000000ee"
  toAddress
  amount

def Fork.firstIndex : Fork → Nat
  | behindAnother => 1
  | alone => 0

def Fork.logs (fork : Fork) : List TransferLog :=
  [payoutLog fork fork.firstIndex custodyAddress.address.val 500,
    payoutLog fork (fork.firstIndex + 1) secondAddress 7]

def Fork.record (fork : Fork) : RecordedChain where
  blocks := fork.block :: fork.above
  logs := fork.logs
  placed := by cases fork <;> decide
  unique := by cases fork <;> decide
  together := by cases fork <;> decide

def forkAdapter : ChainAdapter Fork := recordedAdapter .ascii Fork.record

def forkHistory : ChainHistory forkAdapter .ascii :=
  recordedHistory .ascii Fork.record
    (by intro fork fork'; cases fork <;> cases fork' <;> decide)
    (by intro fork; cases fork <;> decide)

def forkScan (fork : Fork) : DepositTask Fork :=
  .scan someScope (fun entry => someUuid entry.logIndex) (.fixed fork)

def forkWatch (fork : Fork) : DepositTask Fork :=
  .watch someScope fork fun _ => .fixed fork

/-- The addresses are issued, and the scanner finds the payout behind another transfer. -/
def payoutScanned : List (DepositTask Fork) :=
  [.issueAddress "user-1" "BSC" custodyAddress.address.val,
    .issueAddress "user-2" "BSC" secondAddress, forkScan .behindAnother]

def afterTasks (tasks : List (DepositTask Fork)) : Db :=
  runSteps (DepositTask.run forkAdapter .standard) .empty tasks

def payoutId : DepositId := ("BSC", payoutTx, 1)

/-- The block of the payout is replaced, and its logs move up by one index. -/
def payoutShifted : List (DepositTask Fork) :=
  payoutScanned ++ [forkWatch .alone, forkScan .alone]

def statusAndAmount (db : Db) : Option (DepositStatus × Nat) :=
  (db.deposits.find? payoutId).map fun d => (d.status, d.amount)

theorem payout_runs :
    statusAndAmount (afterTasks payoutScanned) = some (.detected, 500) ∧
      statusAndAmount (afterTasks (payoutScanned ++ [forkWatch .behindAnother])) =
        some (.confirmed, 500) ∧
      statusAndAmount (afterTasks payoutShifted) = some (.detected, 500) ∧
      statusAndAmount (afterTasks (payoutShifted ++ [forkWatch .alone])) =
        some (.confirmed, 500) ∧
      AdmittedRun (DepositTask.run forkAdapter .standard)
        (fun db task => task.KeepsPayments forkAdapter .standard db) .empty
        (payoutScanned ++ [forkWatch .behindAnother]) := by
  decide +kernel

theorem statusAndAmount_some {db : Db} {status : DepositStatus} {amount : Nat}
    (h : statusAndAmount db = some (status, amount)) :
    ∃ d, db.deposits.find? payoutId = some d ∧ d.status = status ∧ d.amount = amount := by
  obtain ⟨d, hd, hboth⟩ := Option.map_eq_some_iff.mp h
  exact ⟨d, hd, congrArg Prod.fst hboth, congrArg Prod.snd hboth⟩

/-- The row for 500 units is confirmed by a log which pays 7 units to the other address. -/
theorem shifted_log_confirms_the_wrong_payment :
    (∃ d, (afterTasks payoutShifted).deposits.find? payoutId = some d ∧
      d.status = .detected) ∧
    ∃ d, (afterTasks (payoutShifted ++ [forkWatch .alone])).deposits.find? payoutId =
        some d ∧ d.status = .confirmed ∧
      ¬∃ entry ∈ (forkHistory.view .alone).logs,
        (forkHistory.view .alone).hashAt entry.blockNumber = some d.blockHash ∧
          d.StandsFor entry := by
  obtain ⟨_, _, hbefore, hafter, _⟩ := payout_runs
  obtain ⟨d, hd, hdetected, _⟩ := statusAndAmount_some hbefore
  obtain ⟨d', hd', hconfirmed, hamount⟩ := statusAndAmount_some hafter
  refine ⟨⟨d, hd, hdetected⟩, d', hd', hconfirmed, ?_⟩
  rintro ⟨entry, hentry, _, hstands⟩
  have hindex : d'.logIndex = 1 := congrArg (·.2.2) (Table.key_of_find? hd')
  have hlogs : ∀ entry ∈ Fork.logs .alone, entry.logIndex = 1 → entry.amount = 7 := by
    decide
  have hseven := hlogs entry hentry (hstands.logIndex.trans hindex)
  have hfive := hstands.payment.2
  omega

/-- Before the reorg the row is confirmed by the log it was written for. -/
theorem first_block_confirms_the_payment :
    ∃ d, (afterTasks (payoutScanned ++ [forkWatch .behindAnother])).deposits.find?
        payoutId = some d ∧
      ∃ entry ∈ (forkHistory.view .behindAnother).logs,
        (forkHistory.view .behindAnother).hashAt entry.blockNumber = some d.blockHash ∧
          d.StandsFor entry := by
  obtain ⟨hbefore, hafter, _, _, hkeeps⟩ := payout_runs
  obtain ⟨d, hd, hdetected, _⟩ := statusAndAmount_some hbefore
  obtain ⟨d', hd', hconfirmed, _⟩ := statusAndAmount_some hafter
  have hopen : d.status ≠ .confirmed := by
    rw [hdetected]
    simp
  exact ⟨d', hd', promoted_deposits_are_on_chain forkHistory hkeeps hd hopen hd' hconfirmed⟩

end CryptoWallet.Blockchain
