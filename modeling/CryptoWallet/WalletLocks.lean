import CryptoWallet.LockOrder
import CryptoWallet.WalletSystem

/-!
# Balance locks of concurrent transactions

Every UPDATE and every SELECT FOR UPDATE of a balance row locks it until the
transaction ends.  `post_entries` visits the rows in ascending order of user id,
but a settlement releases the hold of the sender before it posts, so the row of
the sender comes first whatever its id is.  Settlements in both directions
between two users can therefore wait for each other.

The order in which a transaction visits the rows depends on its own transfer
only.  A set of transactions can deadlock exactly when these orders, taken
together, contain a circle.
-/

namespace CryptoWallet.Wallet

open Tx LockOrder

def RowLock.account? : RowLock → Option Account
  | .transfer _ => none
  | .balance account => some account

theorem account?_balance (k : Account) : RowLock.account? (.balance k) = some k :=
  rfl

/-! ## The statements -/

theorem ensureBalance_visits (db : Db) (userId : Int) (asset : String) :
    Visits RowLock.account? (ensureBalance userId asset) db [] (fun _ _ => True) := by
  unfold ensureBalance
  apply Visits.orRaise_bind
  intro stored _
  apply Visits.query_bind
  cases db.balances.find? (userId, stored.val) with
  | some _ => exact Visits.pure trivial
  | none =>
      apply Visits.query_bind
      cases db.users.find? userId with
      | none => exact Visits.throw _
      | some _ => exact Visits.modifyDb trivial

theorem lockBalance_visits (db : Db) (userId : Int) (asset : String) :
    Visits RowLock.account? (lockBalance userId asset) db [(userId, asset)]
      (fun b db' => db'.balances.find? (userId, asset) = some b) := by
  unfold lockBalance
  have hensure := ensureBalance_visits db userId asset
  apply Visits.bind hensure
  intro _ db' _
  apply Visits.query_bind
  cases hfind : db'.balances.find? (userId, asset) with
  | none => exact Visits.throw _
  | some b => exact Visits.lockRow_bind (account?_balance _) (Visits.pure hfind)

theorem insertEntry_visits (db : Db) (scope : Scope) (asset : String)
    (posting : Posting) :
    Visits RowLock.account? (insertEntry scope asset posting) db []
      (fun _ db' => db'.balances = db.balances) := by
  unfold insertEntry
  apply Visits.orRaise_bind
  intro storedAsset _
  apply Visits.orRaise_bind
  intro referenceId _
  apply Visits.orRaise_bind
  intro correlationId _
  split
  · apply Visits.query_bind
    split
    · exact Visits.pure rfl
    · apply Visits.query_bind
      cases db.users.find? posting.userId with
      | none => exact Visits.throw _
      | some _ =>
          apply Visits.modifyDb_bind
          exact Visits.pure rfl
  · exact Visits.throw _

theorem updateBalance_visits {db : Db} {k : Account} {b : Balance}
    (hfind : db.balances.find? k = some b) (condition : Balance → Bool)
    (posted reserved : Balance → Int) :
    Visits RowLock.account? (updateBalance k condition posted reserved) db
      (if condition b = true then [k] else []) (fun _ _ => True) := by
  unfold updateBalance
  apply Visits.query_bind
  rw [hfind]
  simp only
  split
  · apply Visits.lockRow_bind (account?_balance k)
    apply Visits.orRaise_bind
    intro b' _
    apply Visits.modifyDb_bind
    exact Visits.pure trivial
  · exact Visits.pure trivial

theorem releaseHold_visits {db : Db} {userId : Int} {asset : String}
    (hrow : db.hasRow (userId, asset)) (amount : Int) :
    Visits RowLock.account? (releaseHold userId asset amount) db
      [(userId, asset)] (fun _ _ => True) := by
  obtain ⟨b, hfind⟩ := hrow
  have hupdate := updateBalance_visits hfind (fun _ => true)
    (fun b => b.posted) (fun b => b.reserved - amount)
  exact Visits.bind hupdate fun _ _ _ => Visits.pure trivial

theorem postEntry_visits (db : Db) (scope : Scope) (asset : String)
    (posting : Posting) :
    Visits RowLock.account? (postEntry scope asset posting) db
      [(posting.userId, asset)] (fun _ _ => True) := by
  unfold postEntry
  apply Visits.bind_quiet (lockBalance_visits db posting.userId asset)
  intro b db₁ hfind
  have hinsert := insertEntry_visits db₁ scope asset posting
  apply Quiet.bind (hinsert.quiet (List.nil_subset _))
  intro inserted db₂ hbalances
  cases inserted with
  | true =>
      have hupdate := updateBalance_visits (hbalances ▸ hfind) (fun _ => true)
        (fun b => b.posted + posting.amount) (fun b => b.reserved)
      apply Quiet.bind (hupdate.quiet (List.Subset.refl _))
      exact fun _ _ _ => Visits.quiet (Visits.pure trivial) (List.nil_subset _)
  | false => exact Visits.quiet (Visits.pure trivial) (List.nil_subset _)

theorem postSorted_visits (db : Db) (scope : Scope) (asset : String)
    (postings : List Posting) :
    Visits RowLock.account? (postSorted scope asset postings) db
      (postings.map fun p => (p.userId, asset)) (fun _ _ => True) := by
  induction postings generalizing db with
  | nil => exact Visits.pure trivial
  | cons p rest ih =>
      have hfirst := postEntry_visits db scope asset p
      apply Visits.bind hfirst
      intro written db₁ _
      apply Visits.bind_quiet (ih db₁)
      exact fun _ _ _ => Visits.quiet (Visits.pure trivial) (List.nil_subset _)

/-! ## The handlers -/

/-- The balance rows of a transfer in the order `post_entries` visits them. -/
def Transfer.ascending (t : Transfer) : List Account :=
  if t.fromUserId ≤ t.toUserId then [t.sender, t.recipient]
  else [t.recipient, t.sender]

theorem loadForUpdate_visits (db : Db) {payload : Payload} {transferId : Json}
    (hitem : payload.item "transfer_id" = .ok transferId) :
    Visits RowLock.account? (loadForUpdate transferId) db []
      (fun loaded db' => db' = db ∧ loaded = db.named payload) := by
  unfold loadForUpdate
  apply Visits.orRaise_bind
  intro id hid
  apply Visits.query_bind
  rw [named_eq_find? hitem hid]
  cases hfind : db.transfers.find? id with
  | none => exact Visits.pure ⟨rfl, rfl⟩
  | some t =>
      apply Visits.lockOther_bind rfl
      exact Visits.pure ⟨rfl, rfl⟩

/-- The common beginning of the handlers locks the transfer but no balance. -/
theorem loaded_visits {α : Type} {db : Db} {payload : Payload} {order : List Account}
    {post : α → Db → Prop} {k : Option Transfer → WalletTx α}
    (h : Visits RowLock.account? (k (db.named payload)) db order post) :
    Visits RowLock.account?
      (orRaise (payload.item "transfer_id") >>= fun transferId =>
        loadForUpdate transferId >>= k) db order post := by
  apply Visits.orRaise_bind
  intro transferId hitem
  have hload := loadForUpdate_visits db hitem
  have hbind : ∀ loaded db', db' = db ∧ loaded = db.named payload →
      Visits RowLock.account? (k loaded) db' order post := by
    rintro loaded db' ⟨hdb, hloaded⟩
    rw [hdb, hloaded]
    exact h
  exact Visits.bind hload hbind

/-- Two postings, the first for the sender and the second for the recipient,
are visited in ascending order. -/
theorem accounts_sortPostings (t : Transfer) {p q : Posting}
    (hp : p.userId = t.fromUserId) (hq : q.userId = t.toUserId) :
    (sortPostings [p, q]).map (fun p => (p.userId, t.asset)) = t.ascending := by
  unfold Transfer.ascending
  by_cases hle : t.fromUserId ≤ t.toUserId
  · simp [sortPostings, hp, hq, hle, Transfer.sender, Transfer.recipient]
  · simp [sortPostings, hp, hq, hle, Transfer.sender, Transfer.recipient]

theorem sender_ne_recipient (t : Transfer) : t.sender ≠ t.recipient :=
  fun h => t.distinctParties (congrArg Prod.fst h)

theorem acquired_ascending (t : Transfer) : acquired t.ascending = t.ascending := by
  have hne := sender_ne_recipient t
  unfold Transfer.ascending
  split
  · simp [acquired, acquire, hne.symm]
  · simp [acquired, acquire, hne]

theorem acquired_sender_ascending (t : Transfer) :
    acquired (t.sender :: t.ascending) = [t.sender, t.recipient] := by
  have hne := sender_ne_recipient t
  unfold Transfer.ascending
  split
  · simp [acquired, acquire, hne.symm]
  · simp [acquired, acquire, hne.symm]

theorem Sound.senderRow {db : Db} (h : Sound db) {t : Transfer}
    (ht : t ∈ db.transfers.rows) (hopen : t.status.isOpen = true) :
    db.hasRow (t.fromUserId, t.asset) :=
  Db.hasRow_of_reserved
    (lt_of_lt_of_le t.amountPositive (h.holdsCovered t ht hopen))

/-- The rows in the order in which a settlement acquires them. -/
def Transfer.settleOrder (t : Transfer) : List Account :=
  if t.status.isOpen = true then [t.sender, t.recipient] else []

def Transfer.failOrder (t : Transfer) : List Account :=
  match t.status with
  | .created | .processing | .broadcasted => [t.sender]
  | .confirmed => t.ascending
  | .failed => []

def createOrder (request : TransferRequest) : List Account :=
  match getAsset request.asset with
  | none => []
  | some asset => [(request.fromUserId, asset.symbol)]

theorem Transfer.settleOrder_length (t : Transfer) : t.settleOrder.length ≤ 2 := by
  unfold Transfer.settleOrder
  split <;> simp

theorem Transfer.failOrder_length (t : Transfer) : t.failOrder.length ≤ 2 := by
  unfold Transfer.failOrder Transfer.ascending
  cases t.status with
  | created | processing | broadcasted | failed => simp
  | confirmed =>
      simp only
      split <;> simp

theorem createOrder_length (request : TransferRequest) :
    (createOrder request).length ≤ 2 := by
  unfold createOrder
  split <;> simp

theorem acquired_createOrder (request : TransferRequest) :
    acquired (createOrder request) = createOrder request := by
  unfold createOrder
  split <;> rfl

theorem settleTransfer_visits {db : Db} (h : Sound db) (scope : Scope)
    (payload : Payload) :
    ∃ order, acquired order = (db.named payload).elim [] Transfer.settleOrder ∧
      Visits RowLock.account? (settleTransfer scope payload) db order
        (fun _ _ => True) := by
  cases hnamed : db.named payload with
  | none =>
      refine ⟨[], rfl, loaded_visits ?_⟩
      rw [hnamed]
      exact Visits.pure trivial
  | some t =>
      rw [Option.elim_some, Transfer.settleOrder]
      by_cases hopen : t.status.isOpen = true
      · have hconfirmed : t.status ≠ .confirmed := by
          intro hstatus
          simp [hstatus, TransferStatus.isOpen] at hopen
        have hfailed : t.status ≠ .failed := by
          intro hstatus
          simp [hstatus, TransferStatus.isOpen] at hopen
        refine ⟨t.sender :: t.ascending, ?_, loaded_visits ?_⟩
        · rw [if_pos hopen, acquired_sender_ascending]
        · rw [hnamed]
          simp only [hconfirmed, hfailed, if_false]
          have hrelease := releaseHold_visits
            (h.senderRow (Table.mem_of_find? (Db.find?_of_named hnamed)) hopen) t.amount
          apply Visits.bind hrelease
          intro _ db₁ _
          have hpost := postSorted_visits db₁ scope t.asset
            (sortPostings (settlementPostings t))
          rw [settlementPostings, accounts_sortPostings t rfl rfl] at hpost
          apply Visits.bind_quiet hpost
          intro _ db₂ _
          apply Visits.quiet ?_ (List.nil_subset _)
          apply Visits.orRaise_bind
          intro txHash _
          apply Visits.modifyDb_bind
          exact Visits.pure trivial
      · refine ⟨[], (if_neg hopen).symm, loaded_visits ?_⟩
        rw [hnamed]
        simp only
        split
        · exact Visits.pure trivial
        next hconfirmed =>
          split
          · exact Visits.pure trivial
          next hfailed =>
            cases hstatus : t.status <;> simp_all [TransferStatus.isOpen]

theorem undoTransfer_visits {db : Db} (h : Sound db) (scope : Scope)
    {t : Transfer} (ht : t ∈ db.transfers.rows) (hfailed : t.status ≠ .failed) :
    Visits RowLock.account? (undoTransfer scope t) db t.failOrder
      (fun _ _ => True) := by
  unfold undoTransfer Transfer.failOrder
  have hrelease : t.status.isOpen = true →
      Visits RowLock.account? (releaseHold t.fromUserId t.asset t.amount) db
        [t.sender] (fun _ _ => True) :=
    fun hopen => releaseHold_visits (h.senderRow ht hopen) t.amount
  cases hstatus : t.status with
  | created | processing | broadcasted =>
      exact hrelease (by simp [hstatus, TransferStatus.isOpen])
  | failed => exact absurd hstatus hfailed
  | confirmed =>
      have hpost := postSorted_visits db scope t.asset
        (sortPostings (reversalPostings t))
      rw [reversalPostings, accounts_sortPostings t rfl rfl] at hpost
      apply Visits.bind_quiet hpost
      exact fun _ _ _ => Visits.quiet (Visits.pure trivial) (List.nil_subset _)

theorem acquired_failOrder (t : Transfer) : acquired t.failOrder = t.failOrder := by
  unfold Transfer.failOrder
  split
  · rfl
  · rfl
  · rfl
  · exact acquired_ascending t
  · rfl

theorem failTransfer_visits {db : Db} (h : Sound db) (scope : Scope)
    (payload : Payload) :
    ∃ order, acquired order = (db.named payload).elim [] Transfer.failOrder ∧
      Visits RowLock.account? (failTransfer scope payload) db order
        (fun _ _ => True) := by
  cases hnamed : db.named payload with
  | none =>
      refine ⟨[], rfl, loaded_visits ?_⟩
      rw [hnamed]
      exact Visits.pure trivial
  | some t =>
      refine ⟨t.failOrder, acquired_failOrder t, loaded_visits ?_⟩
      rw [hnamed]
      by_cases hfailed : t.status = .failed
      · simp only [hfailed, if_true, Transfer.failOrder]
        exact Visits.pure trivial
      · simp only [hfailed, if_false]
        have hundo :=
          undoTransfer_visits h scope (Table.mem_of_find? (Db.find?_of_named hnamed)) hfailed
        apply Visits.bind_quiet hundo
        intro _ db₁ _
        apply Visits.quiet ?_ (List.nil_subset _)
        apply Visits.orRaise_bind
        intro failureCode _
        apply Visits.orRaise_bind
        intro failureReason _
        apply Visits.orRaise_bind
        intro txHash _
        apply Visits.modifyDb_bind
        exact Visits.pure trivial

/-! ### Creation -/

theorem getUser_visits (db : Db) (userId : Int) :
    Visits RowLock.account? (getUser userId) db [] (fun _ _ => True) := by
  unfold getUser
  apply Visits.query_bind
  cases db.users.find? userId with
  | none => exact Visits.throw _
  | some user => exact Visits.pure trivial

theorem requireActiveUsers_visits (db : Db) (users : List User) :
    Visits RowLock.account? (requireActiveUsers users) db [] (fun _ _ => True) := by
  induction users with
  | nil => exact Visits.pure trivial
  | cons user rest ih =>
      unfold requireActiveUsers
      split
      · exact Visits.throw _
      · exact ih

theorem requireActiveWallets_visits (db : Db) (wallets : List WalletRow) :
    Visits RowLock.account? (requireActiveWallets wallets) db []
      (fun _ _ => True) := by
  induction wallets with
  | nil => exact Visits.pure trivial
  | cons wallet rest ih =>
      unfold requireActiveWallets
      split
      · exact Visits.throw _
      · exact ih

theorem insertTransfer_visits (db : Db) (scope : Scope) (newId : Uuid)
    (request : TransferRequest) (asset : Asset) (fromWallet toWallet : WalletRow) :
    Visits RowLock.account?
      (insertTransfer scope newId request asset fromWallet toWallet) db []
      (fun _ _ => True) := by
  unfold insertTransfer
  apply Visits.orRaise_bind
  intro idempotencyKey _
  apply Visits.orRaise_bind
  intro symbol _
  apply Visits.orRaise_bind
  intro network _
  apply Visits.orRaise_bind
  intro fromAddress _
  apply Visits.orRaise_bind
  intro toAddress _
  apply Visits.orRaise_bind
  intro correlationId _
  split
  · apply Visits.query_bind
    split
    · exact Visits.throw _
    · apply Visits.query_bind
      split
      · exact Visits.throw _
      · apply Visits.modifyDb_bind
        exact Visits.pure trivial
  · exact Visits.throw _

theorem enqueue_visits (db : Db) (envelope : Envelope) :
    Visits RowLock.account? (enqueue envelope) db [] (fun _ _ => True) := by
  unfold enqueue
  apply Visits.query_bind
  apply Visits.orRaise_bind
  intro outbox _
  exact Visits.modifyDb trivial

theorem placeHold_quiet {db : Db} {userId : Int} {asset : String} {b : Balance}
    (hfind : db.balances.find? (userId, asset) = some b) (amount : Int) :
    Quiet RowLock.account? [(userId, asset)] (placeHold userId asset amount) db
      (fun _ _ => True) := by
  have hupdate := updateBalance_visits hfind
    (fun b => decide (amount ≤ b.posted - b.reserved)) (fun b => b.posted)
    (fun b => b.reserved + amount)
  apply Quiet.bind (hupdate.quiet ?_)
  · exact fun _ _ _ => Visits.quiet (Visits.pure trivial) (List.nil_subset _)
  · split
    · exact List.Subset.refl _
    · exact List.nil_subset _

theorem createTransfer_visits (db : Db) (scope : Scope) (newId : Uuid)
    (request : TransferRequest) :
    Visits RowLock.account? (createTransfer scope newId request) db
      (createOrder request) (fun _ _ => True) := by
  unfold createTransfer createOrder
  split
  · exact Visits.throw _
  cases hasset : getAsset request.asset with
  | none => exact Visits.throw _
  | some asset =>
      simp only
      have hsender := getUser_visits db request.fromUserId
      apply Visits.bind hsender
      intro sender db₁ _
      have hrecipient := getUser_visits db₁ request.toUserId
      apply Visits.bind hrecipient
      intro recipient db₂ _
      have husers := requireActiveUsers_visits db₂ [sender, recipient]
      apply Visits.bind husers
      intro _ db₃ _
      apply Visits.query_bind
      apply Visits.query_bind
      split
      next fromWallet toWallet _ _ =>
        have hwallets := requireActiveWallets_visits db₃ [fromWallet, toWallet]
        apply Visits.bind hwallets
        intro _ db₄ _
        apply Visits.bind_quiet (lockBalance_visits db₄ _ _)
        intro balance db₅ hfind
        apply Quiet.bind (placeHold_quiet hfind request.amountUnits)
        intro placed db₆ _
        cases placed with
        | false => exact Visits.quiet (Visits.throw _) (List.nil_subset _)
        | true =>
            have hinsert := insertTransfer_visits db₆ scope newId request asset
              fromWallet toWallet
            apply Quiet.bind (hinsert.quiet (List.nil_subset _))
            intro t db₇ _
            apply Quiet.bind ((enqueue_visits db₇ _).quiet (List.nil_subset _))
            exact fun _ _ _ => Visits.quiet (Visits.pure trivial) (List.nil_subset _)
      next => exact Visits.throw _

/-! ## Concurrent transactions -/

inductive Job where
  | settle (payload : Payload)
  | fail (payload : Payload)
  | create (newId : Uuid) (request : TransferRequest)

namespace Job

def tx (scope : Scope) : Job → WalletTx Unit
  | settle payload => do
    let _ ← settleTransfer scope payload
  | fail payload => do
    let _ ← failTransfer scope payload
  | create newId request => do
    let _ ← createTransfer scope newId request

/-- The stored transfer the job is about. -/
def named (db : Db) : Job → Option Transfer
  | settle payload | fail payload => db.named payload
  | create _ _ => none

def transferId : Job → Option Uuid
  | settle payload | fail payload => namedId payload
  | create newId _ => some newId

/-- The balance rows in the order in which the job acquires them. -/
def order (db : Db) : Job → List Account
  | settle payload => (db.named payload).elim [] Transfer.settleOrder
  | fail payload => (db.named payload).elim [] Transfer.failOrder
  | create _ request => createOrder request

theorem order_eq_of_named {db db' : Db} {job : Job}
    (h : job.named db' = job.named db) : job.order db' = job.order db := by
  cases job with
  | settle payload => exact congrArg (Option.elim · [] Transfer.settleOrder) h
  | fail payload => exact congrArg (Option.elim · [] Transfer.failOrder) h
  | create newId request => rfl

theorem visits {db : Db} (h : Sound db) (scope : Scope) (job : Job) :
    ∃ visited, acquired visited = job.order db ∧
      Visits RowLock.account? (job.tx scope) db visited (fun _ _ => True) := by
  have hdiscard : ∀ {α : Type} {tx : WalletTx α} {visited : List Account},
      Visits RowLock.account? tx db visited (fun _ _ => True) →
      Visits RowLock.account? (do let _ ← tx) db visited (fun _ _ => True) := by
    intro α tx visited hvisits
    apply Visits.bind_quiet hvisits
    exact fun _ _ _ => Visits.quiet (Visits.pure trivial) (List.nil_subset _)
  cases job with
  | settle payload =>
      obtain ⟨visited, hvisited, hvisits⟩ := settleTransfer_visits h scope payload
      exact ⟨visited, hvisited, hdiscard hvisits⟩
  | fail payload =>
      obtain ⟨visited, hvisited, hvisits⟩ := failTransfer_visits h scope payload
      exact ⟨visited, hvisited, hdiscard hvisits⟩
  | create newId request =>
      exact ⟨createOrder request, acquired_createOrder request,
        hdiscard (createTransfer_visits db scope newId request)⟩

theorem order_length (db : Db) (job : Job) : (job.order db).length ≤ 2 := by
  cases job with
  | settle payload =>
      cases hnamed : db.named payload with
      | none => simp [order, hnamed]
      | some t => simpa [order, hnamed] using t.settleOrder_length
  | fail payload =>
      cases hnamed : db.named payload with
      | none => simp [order, hnamed]
      | some t => simpa [order, hnamed] using t.failOrder_length
  | create newId request => exact createOrder_length request

end Job

/-- One of several transactions which run at the same time.  Its statements see
what has been committed since, as long as its own transfer is left alone. -/
structure Running (config : Config) (history : List Step) where
  scope : Scope
  job : Job
  later : List Step
  undisturbed : job.named (run config (history ++ later)) =
    job.named (run config history)

namespace Running

variable {config : Config} {history : List Step} (running : Running config history)

def view : Db := run config (history ++ running.later)

/-- The balance rows the transaction acquires, in the order of acquisition. -/
def program : List Account :=
  held RowLock.account? (lockTrace (running.job.tx running.scope) running.view)

def order : List Account := running.job.order (run config history)

def Completes : Prop :=
  ∃ db', commit (running.job.tx running.scope) running.view = (.ok (), db')

theorem program_spec : running.program <+: running.order ∧
    (running.Completes → running.program = running.order) := by
  obtain ⟨visited, hvisited, hvisits⟩ :=
    running.job.visits (run_sound config (history ++ running.later)) running.scope
  have htrace := hvisits.held_lockTrace
  rw [hvisited, Job.order_eq_of_named running.undisturbed] at htrace
  refine ⟨htrace.1, ?_⟩
  rintro ⟨db', hcommit⟩
  exact htrace.2 () db' hcommit

theorem program_nodup : running.program.Nodup := acquired_nodup _

end Running

/-- A set of transactions on distinct transfers. -/
structure Concurrent (config : Config) where
  history : List Step
  size : Nat
  running : Fin size → Running config history
  distinct : ∀ i j id, (running i).job.transferId = some id →
    (running j).job.transferId = some id → i = j

namespace Concurrent

variable {config : Config} (batch : Concurrent config)

def program (i : Fin batch.size) : List Account := (batch.running i).program

def order (i : Fin batch.size) : List Account := (batch.running i).order

def DeadlockFree : Prop :=
  ∀ s, Reachable batch.program s → ¬Deadlocked batch.program s

theorem acyclic_program (h : Acyclic batch.order) : Acyclic batch.program := by
  intro row hcircle
  apply h row
  have hbefore : Before batch.program ≤ Before batch.order := by
    rintro row row' ⟨i, hsublist⟩
    exact ⟨i, hsublist.trans (batch.running i).program_spec.1.sublist⟩
  exact Relation.TransGen.mono hbefore row row hcircle

end Concurrent

/-- Concurrent transactions cannot deadlock when the orders in which they
acquire balance rows contain no circle, and only then if they all complete. -/
theorem balance_locks_deadlock_free_iff (config : Config) (batch : Concurrent config) :
    (Acyclic batch.order → batch.DeadlockFree) ∧
      ((∀ i, (batch.running i).Completes) →
        (batch.DeadlockFree ↔ Acyclic batch.order)) := by
  have hfree : Acyclic batch.order → batch.DeadlockFree :=
    fun h s _ => not_deadlocked_of_acyclic (batch.acyclic_program h) s
  refine ⟨hfree, ?_⟩
  intro hcompletes
  refine ⟨?_, hfree⟩
  intro hdeadlock
  have horder : batch.program = batch.order := by
    funext i
    exact (batch.running i).program_spec.2 (hcompletes i)
  by_contra hcircle
  rw [← horder] at hcircle
  have hlength : ∀ i, (batch.program i).length ≤ 2 := by
    intro i
    rw [horder]
    exact Job.order_length _ _
  obtain ⟨s, hreachable, hs⟩ := exists_deadlock_of_circle hlength
    (fun i => (batch.running i).program_nodup) hcircle
  exact hdeadlock s hreachable hs

/-! Two transfers in opposite directions settle at the same time. -/

def crossedPayload (text : String) : Payload := [("transfer_id", .str text)]

def crossedDeposit (txHash address : String) : Payload :=
  [("network", .str "BSC"), ("asset", .str "USDT"), ("tx_hash", .str txHash),
    ("log_index", .int 0), ("to_address", .str address),
    ("amount_units", .str "100"), ("block_hash", .str "0xb1")]

def crossedHistory : List Step :=
  [.createUser 1 "Alice" "alice@example.com",
    .createUser 2 "Bob" "bob@example.com",
    .attachWallet (someUuid 1) 1 "BSC" "USDT" "0xA",
    .attachWallet (someUuid 2) 2 "BSC" "USDT" "0xB",
    .dispatch spentScope ⟨.uuid4 1, .depositConfirmed, "blockchain-service", "",
      crossedDeposit "0x1" "0xA", []⟩,
    .dispatch spentScope ⟨.uuid4 2, .depositConfirmed, "blockchain-service", "",
      crossedDeposit "0x2" "0xB", []⟩,
    .createTransfer spentScope (someUuid 3) ⟨1, 2, "USDT", 40, "key-1", "BSC"⟩,
    .createTransfer spentScope (someUuid 4) ⟨2, 1, "USDT", 60, "key-2", "BSC"⟩]

def crossedJobs : Fin 2 → Job
  | 0 => .settle (crossedPayload "00000000-0000-0000-0000-000000000003")
  | 1 => .settle (crossedPayload "00000000-0000-0000-0000-000000000004")

def crossed : Concurrent spentConfig where
  history := crossedHistory
  size := 2
  running i := ⟨spentScope, crossedJobs i, [], by rw [List.append_nil]⟩
  distinct := by
    have hids : ∀ i j : Fin 2,
        (crossedJobs i).transferId = (crossedJobs j).transferId → i = j := by
      decide
    exact fun i j id hi hj => hids i j (hi.trans hj.symm)

theorem crossed_program : ∀ i : Fin crossed.size, crossed.program i =
    if i.val = 0 then [(1, "USDT"), (2, "USDT")] else [(2, "USDT"), (1, "USDT")] := by
  decide +kernel

/-- The two settlements wait for each other in a reachable state. -/
theorem crossed_settlements_deadlock :
    ∃ s, Reachable crossed.program s ∧ Deadlocked crossed.program s := by
  have hforth : Before crossed.program (1, "USDT") (2, "USDT") :=
    ⟨⟨0, by decide⟩, by rw [crossed_program]; exact List.Sublist.refl _⟩
  have hback : Before crossed.program (2, "USDT") (1, "USDT") :=
    ⟨⟨1, by decide⟩, by rw [crossed_program]; exact List.Sublist.refl _⟩
  apply exists_deadlock_of_circle
  · intro i
    rw [crossed_program]
    split <;> simp
  · exact fun i => (crossed.running i).program_nodup
  · intro hacyclic
    exact hacyclic (1, "USDT") ((Relation.TransGen.single hforth).tail hback)

end CryptoWallet.Wallet
